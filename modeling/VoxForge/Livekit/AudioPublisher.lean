import VoxForge.Audio.Cartesia
import VoxForge.Foundation.Conservation

/-! Publishing speech to a room: the bytes of a turn cut into frames of ten milliseconds, while
other calls wait for the lock and a barge-in may clear what is queued at any await. -/
namespace VoxForge.Livekit
open Foundation VoxForge.Audio

def ttsSampleRate : Nat := 24000

def publishSampleRate : Nat := 48000

def frameMs : Nat := 10

/-- A resampler as it was opened, with what it has buffered. -/
structure OpenResampler (ρ : Type) where
  inputRate : Nat
  outputRate : Nat
  buffered : ρ
  deriving DecidableEq, Repr

/-- The resampler of the room's library. -/
structure Resampling (ρ : Type) where
  empty : ρ
  push : OpenResampler ρ → Bytes → ρ × List Bytes
  flush : OpenResampler ρ → ρ × List Bytes

/-- A call that has to take the lock, with the frames it has resampled before. -/
inductive PublisherCall where
  | publishChunk (frames : List Bytes)
  | flush
  deriving DecidableEq, Repr

/-- What the audio source is asked. -/
inductive SourceCall where
  | captureFrame (frame : Bytes)
  | clearQueue
  deriving DecidableEq, Repr

/-- `holder` is the call that has the lock and waits for its frame to be captured; `source` is
what the audio source has been asked so far. -/
structure AudioPublisher (ρ : Type) where
  sampleRate : Nat
  resampler : OpenResampler ρ
  pending : Bytes := []
  turnPcm : Bytes := []
  holder : Option PublisherCall := none
  waiting : List PublisherCall := []
  source : List SourceCall := []
  deriving DecidableEq, Repr

namespace AudioPublisher
variable {ρ : Type}

section source
variable (resampling : Resampling ρ)

def openResampler (inputRate outputRate : Nat) : OpenResampler ρ :=
  { inputRate, outputRate, buffered := resampling.empty }

def new (sampleRate : Nat := publishSampleRate) : AudioPublisher ρ :=
  { sampleRate, resampler := openResampler resampling ttsSampleRate sampleRate }

def bytesPerFrame (p : AudioPublisher ρ) : Nat := p.sampleRate * frameMs / 1000 * 2

/-- `_drain_pending_locked` up to its next await, or to the end of its call. -/
def drain (call : PublisherCall) (p : AudioPublisher ρ) : AudioPublisher ρ :=
  if p.bytesPerFrame ≤ p.pending.length then
    { p with
      pending := p.pending.drop p.bytesPerFrame
      source := p.source ++ [.captureFrame (p.pending.take p.bytesPerFrame)]
      holder := some call }
  else { p with holder := none, turnPcm := if call = .flush then [] else p.turnPcm }

/-- The zeros that `flush` adds: to a whole sample, and to a whole frame where there is less than one. -/
def padding (p : AudioPublisher ρ) (n : Nat) : Bytes :=
  let even := n + n % 2
  if n = 0 then []
  else List.replicate (n % 2 + if even < p.bytesPerFrame then p.bytesPerFrame - even else 0) 0

/-- The resampler after a call has got its audio, that audio, and the zeros after it. -/
def input (p : AudioPublisher ρ) : PublisherCall → OpenResampler ρ × Bytes × Bytes
  | .publishChunk frames => (p.resampler,frames.flatten,[])
  | .flush =>
    let (buffered,frames) := resampling.flush p.resampler
    ({ p.resampler with buffered },frames.flatten,p.padding (p.pending ++ frames.flatten).length)

/-- A call that has got the lock runs to its first await. -/
def enter (call : PublisherCall) (p : AudioPublisher ρ) : AudioPublisher ρ :=
  let (resampler,audio,zeros) := p.input resampling call
  let p := { p with resampler, pending := p.pending ++ audio ++ zeros, turnPcm := p.turnPcm ++ audio }
  if call = .flush ∧ p.pending = [] then { p with holder := none, turnPcm := [] } else p.drain call

/-- The lock is taken at once where nobody holds it or waits for it. -/
def acquire (call : PublisherCall) (p : AudioPublisher ρ) : AudioPublisher ρ :=
  if p.holder = none ∧ p.waiting = [] then p.enter resampling call
  else { p with waiting := p.waiting ++ [call] }

def wholeSamples (data : Bytes) : Bytes := if data.length % 2 = 1 then data.dropLast else data

def sourceRate (chunk : AudioChunk) : Nat := if chunk.sampleRate = 0 then ttsSampleRate else chunk.sampleRate

/-- `publish_chunk` before it asks for the lock; `none` where it returns at once. -/
def resample (chunk : AudioChunk) (p : AudioPublisher ρ) : Option (OpenResampler ρ × List Bytes) :=
  let data := wholeSamples chunk.data
  if data = [] then none
  else if sourceRate chunk = p.sampleRate then some (p.resampler,[data])
  else
    let resampler :=
      if sourceRate chunk ≠ ttsSampleRate then openResampler resampling (sourceRate chunk) p.sampleRate
      else p.resampler
    let (buffered,frames) := resampling.push resampler data
    some ({ resampler with buffered },frames)

inductive PublisherLabel where
  | publishChunk (chunk : AudioChunk)
  | flush
  | clear
  /-- The first of those that wait gets the lock. -/
  | wake
  /-- The source has taken the frame, or has raised, which is logged. -/
  | captured
  /-- The task that holds the lock is cancelled. -/
  | cancel
  /-- A task that waits is cancelled. -/
  | withdraw (n : Nat)
  deriving DecidableEq, Repr

def step (p : AudioPublisher ρ) : PublisherLabel → Option (AudioPublisher ρ)
  | .publishChunk chunk =>
    match p.resample resampling chunk with
    | none => some p
    | some (resampler,frames) => some ({ p with resampler }.acquire resampling (.publishChunk frames))
  | .flush => some (p.acquire resampling .flush)
  | .clear => some { p with pending := [], turnPcm := [], source := p.source ++ [.clearQueue] }
  | .wake =>
    match p.holder,p.waiting with
    | none,call :: waiting => some ({ p with waiting }.enter resampling call)
    | _,_ => none
  | .captured => p.holder.map fun call => p.drain call
  | .cancel => p.holder.map fun _ => { p with holder := none }
  | .withdraw n => if n < p.waiting.length then some { p with waiting := p.waiting.eraseIdx n } else none

/-- What a call appends to the pending bytes when it gets the lock. -/
def appended (p : AudioPublisher ρ) (call : PublisherCall) : Bytes :=
  (p.input resampling call).2.1 ++ (p.input resampling call).2.2

/-- What a step appends: a call's audio, where the step lets it in. -/
def taken (p : AudioPublisher ρ) : PublisherLabel → Bytes
  | .publishChunk chunk =>
    match p.resample resampling chunk with
    | none => []
    | some (resampler,frames) =>
      if p.holder = none ∧ p.waiting = [] then { p with resampler }.appended resampling (.publishChunk frames) else []
  | .flush => if p.holder = none ∧ p.waiting = [] then p.appended resampling .flush else []
  | .wake =>
    match p.holder,p.waiting with
    | none,call :: _ => p.appended resampling call
    | _,_ => []
  | _ => []

def framesIn (calls : List SourceCall) : List Bytes :=
  calls.filterMap fun
    | .captureFrame frame => some frame
    | .clearQueue => none

/-- The frames for which the source has been asked after its queue was cleared last. -/
def sinceClear : List SourceCall → List Bytes :=
  List.foldl (fun frames call => match call with
    | .captureFrame frame => frames ++ [frame]
    | .clearQueue => []) []

def flow (p : AudioPublisher ρ) : PublisherLabel → Flow UInt8
  | .clear => .emptied
  | l => .moved (p.taken resampling l)
      ((p.step resampling l).elim [] fun q => (framesIn (q.source.drop p.source.length)).flatten)

/-- All that has been appended to the pending bytes since they were cleared last. -/
def fedSinceClear (p : AudioPublisher ρ) (ls : List PublisherLabel) : Bytes :=
  (account (step resampling) (flow resampling) ([],[]) p ls).1

end source

/-! One call -/

section calls
variable {resampling : Resampling ρ} {p q : AudioPublisher ρ} {call : PublisherCall} {l : PublisherLabel}

/-- A step from `p` to `q` that appends `bytes`: it hands on whole frames from the front. -/
structure Cuts (p q : AudioPublisher ρ) (bytes : Bytes) (frames : List Bytes) : Prop where
  source : q.source = p.source ++ frames.map .captureFrame
  pending : p.pending ++ bytes = frames.flatten ++ q.pending
  whole : ∀ frame ∈ frames, frame.length = p.bytesPerFrame
  sampleRate : q.sampleRate = p.sampleRate

theorem Cuts.refl (p : AudioPublisher ρ) : Cuts p p [] [] := by
  refine ⟨by simp,by simp,?_,rfl⟩
  intro frame hframe
  cases hframe

theorem cuts_drain (call : PublisherCall) (p : AudioPublisher ρ) : ∃ frames, Cuts p (p.drain call) [] frames := by
  unfold drain
  split
  · next hlong =>
    refine ⟨[p.pending.take p.bytesPerFrame],rfl,by simp,?_,rfl⟩
    intro frame hframe
    rw [List.mem_singleton.mp hframe,List.length_take]
    exact Nat.min_eq_left hlong
  · exact ⟨[],by simp,by simp,by simp,rfl⟩

/-- The same, where the bytes have been appended before. -/
theorem Cuts.of_appended {bytes : Bytes} {frames : List Bytes} {fed : AudioPublisher ρ} (h : Cuts fed q [] frames)
    (hsource : fed.source = p.source) (hpending : fed.pending = p.pending ++ bytes) (hrate : fed.sampleRate = p.sampleRate) :
    Cuts p q bytes frames := by
  refine ⟨by rw [h.source,hsource],?_,?_,h.sampleRate.trans hrate⟩
  · rw [← hpending,← h.pending,List.append_nil]
  · intro frame hframe
    rw [h.whole frame hframe]
    unfold bytesPerFrame
    rw [hrate]

theorem cuts_enter (resampling : Resampling ρ) (call : PublisherCall) (p : AudioPublisher ρ) :
    ∃ frames, Cuts p (p.enter resampling call) (p.appended resampling call) frames := by
  unfold enter appended
  rcases hinput : p.input resampling call with ⟨resampler,audio,zeros⟩
  dsimp only
  split
  · next hnone =>
    have hnone : p.pending ++ audio ++ zeros = [] := hnone.2
    refine ⟨[],by simp,?_,by simp,rfl⟩
    rw [List.append_assoc] at hnone ⊢
    exact (by simpa using hnone : _ ∧ _).elim fun h1 h2 => by simp [h1,h2]
  · obtain ⟨frames,hcuts⟩ := cuts_drain call
      { p with resampler, pending := p.pending ++ audio ++ zeros, turnPcm := p.turnPcm ++ audio }
    exact ⟨frames,hcuts.of_appended rfl (List.append_assoc _ _ _) rfl⟩

theorem cuts_acquire (resampling : Resampling ρ) (call : PublisherCall) (p : AudioPublisher ρ) :
    ∃ frames, Cuts p (p.acquire resampling call)
      (if p.holder = none ∧ p.waiting = [] then p.appended resampling call else []) frames := by
  unfold acquire
  split
  · exact cuts_enter resampling call p
  · exact ⟨[],by simp,by simp,by simp,rfl⟩

/-- Every step but a clear cuts what it appends. -/
theorem cuts_step (hl : l ≠ .clear) (hs : p.step resampling l = some q) :
    ∃ frames, Cuts p q (p.taken resampling l) frames := by
  cases l with
  | publishChunk chunk =>
    unfold step taken at *
    cases hresample : p.resample resampling chunk with
    | none =>
      simp only [hresample] at hs ⊢
      cases hs
      exact ⟨[],Cuts.refl p⟩
    | some resampled =>
      obtain ⟨resampler,frames⟩ := resampled
      simp only [hresample] at hs ⊢
      cases hs
      obtain ⟨cut,hcuts⟩ := cuts_acquire resampling (.publishChunk frames) { p with resampler }
      exact ⟨cut,hcuts.source,hcuts.pending,hcuts.whole,hcuts.sampleRate⟩
  | flush =>
    cases hs
    exact cuts_acquire resampling .flush p
  | clear => exact absurd rfl hl
  | wake =>
    cases hholder : p.holder with
    | some call => simp [step,hholder] at hs
    | none =>
      cases hwaiting : p.waiting with
      | nil => simp [step,hholder,hwaiting] at hs
      | cons call waiting =>
        simp only [step,hholder,hwaiting,Option.some.injEq] at hs
        subst hs
        simp only [taken,hholder,hwaiting]
        obtain ⟨cut,hcuts⟩ := cuts_enter resampling call { p with waiting }
        exact ⟨cut,hcuts.source,hcuts.pending,hcuts.whole,hcuts.sampleRate⟩
  | captured =>
    obtain ⟨call,-,rfl⟩ := Option.map_eq_some_iff.mp hs
    exact cuts_drain call p
  | cancel =>
    obtain ⟨call,-,rfl⟩ := Option.map_eq_some_iff.mp hs
    exact ⟨[],by simp,by simp [taken],by simp,rfl⟩
  | withdraw n =>
    simp only [step] at hs
    split at hs
    · cases hs
      exact ⟨[],by simp,by simp [taken],by simp,rfl⟩
    · cases hs

/-! Runs -/

theorem framesIn_append (calls : List SourceCall) (frames : List Bytes) :
    framesIn (calls ++ frames.map .captureFrame) = framesIn calls ++ frames := by
  unfold framesIn
  rw [List.filterMap_append,List.filterMap_map]
  congr 1
  exact List.filterMap_some

theorem sinceClear_append (calls : List SourceCall) (frames : List Bytes) :
    sinceClear (calls ++ frames.map .captureFrame) = sinceClear calls ++ frames := by
  unfold sinceClear
  rw [List.foldl_append]
  generalize List.foldl _ [] calls = before
  induction frames generalizing before with
  | nil => simp
  | cons frame frames ih =>
    rw [List.map_cons,List.foldl_cons,ih]
    simp

theorem sinceClear_clear (calls : List SourceCall) : sinceClear (calls ++ [.clearQueue]) = [] := by
  unfold sinceClear
  rw [List.foldl_append]
  rfl

theorem flow_of_ne_clear (hl : l ≠ .clear) (hs : p.step resampling l = some q) {frames : List Bytes}
    (h : Cuts p q (p.taken resampling l) frames) : p.flow resampling l = .moved (p.taken resampling l) frames.flatten := by
  have hgiven : (framesIn (q.source.drop p.source.length)).flatten = frames.flatten := by
    rw [h.source,List.drop_left]
    have hall := framesIn_append [] frames
    rw [List.nil_append] at hall
    rw [hall]
    rfl
  cases l with
  | clear => exact absurd rfl hl
  | _ => simp only [flow,hs,Option.elim_some,hgiven]

theorem flow_balances (hs : p.step resampling l = some q) : (p.flow resampling l).Balances p.pending q.pending := by
  by_cases hl : l = .clear
  · subst hl
    cases hs
    exact rfl
  · obtain ⟨frames,hcuts⟩ := cuts_step hl hs
    rw [flow_of_ne_clear hl hs hcuts]
    exact hcuts.pending

/-- What the account gives is what the source has been asked since its queue was cleared. -/
theorem account_given {ls : List PublisherLabel} {entry : Bytes × Bytes} (hentry : entry.2 = (sinceClear p.source).flatten)
    (hrun : run (step resampling) p ls = some q) :
    (account (step resampling) (flow resampling) entry p ls).2 = (sinceClear q.source).flatten := by
  induction ls generalizing p entry with
  | nil =>
    cases hrun
    exact hentry
  | cons l ls ih =>
    obtain ⟨r,hr,hrest⟩ := Option.bind_eq_some_iff.mp hrun
    rw [account,hr]
    refine ih ?_ hrest
    by_cases hl : l = .clear
    · subst hl
      cases hr
      rw [sinceClear_clear]
      rfl
    · obtain ⟨frames,hcuts⟩ := cuts_step hl hr
      rw [flow_of_ne_clear hl hr hcuts,Flow.book,hentry,hcuts.source,sinceClear_append,List.flatten_append]

/-- Whatever calls wait or are cancelled, and whenever the queue is cleared: the source is asked
for whole frames only, and since the last clear it has been asked for all that was appended
since then, in order, but for the bytes that are still pending. -/
theorem published_frames {sampleRate : Nat} {ls : List PublisherLabel}
    (hrun : run (step resampling) (new resampling sampleRate) ls = some q) :
    (∀ frame, .captureFrame frame ∈ q.source → frame.length = sampleRate * frameMs / 1000 * 2) ∧
      (new resampling sampleRate).fedSinceClear resampling ls = (sinceClear q.source).flatten ++ q.pending := by
  have hinv : q.sampleRate = sampleRate ∧
      ∀ frame, .captureFrame frame ∈ q.source → frame.length = sampleRate * frameMs / 1000 * 2 := by
    refine (Visits.of_run hrun).invariant (I := fun q => q.sampleRate = sampleRate ∧
      ∀ frame, .captureFrame frame ∈ q.source → frame.length = sampleRate * frameMs / 1000 * 2)
      ⟨rfl,fun frame hframe => by cases hframe⟩ fun a l b ha hs => ?_
    obtain ⟨hrate,hframes⟩ := ha
    by_cases hl : l = .clear
    · subst hl
      cases hs
      refine ⟨hrate,fun frame hframe => hframes frame ?_⟩
      simpa using hframe
    · obtain ⟨frames,hcuts⟩ := cuts_step hl hs
      refine ⟨hcuts.sampleRate.trans hrate,fun frame hframe => ?_⟩
      rw [hcuts.source] at hframe
      rcases List.mem_append.mp hframe with hframe | hframe
      · exact hframes frame hframe
      · obtain ⟨cut,hcut,heq⟩ := List.mem_map.mp hframe
        cases heq
        rw [hcuts.whole frame hcut,bytesPerFrame,hrate]
  refine ⟨hinv.2,?_⟩
  have hgiven : (account (step resampling) (flow resampling) ([],[]) (new resampling sampleRate) ls).2 =
      (sinceClear q.source).flatten := account_given rfl hrun
  unfold fedSinceClear
  rw [account_balanced (fun a l b _ hs => flow_balances hs) rfl hrun,hgiven]

/-- A resampler that passes everything on. -/
def passing : Resampling Unit where
  empty := ()
  push := fun _ data => ((),[data])
  flush := fun _ => ((),[])

theorem two_frames_published : ∃ q : AudioPublisher Unit,
    run (step passing) (new passing 200) [.publishChunk ⟨[1,2,3,4,5,6,7],200,"pcm_s16le"⟩,.captured] = some q ∧
      q.source = [.captureFrame [1,2,3,4]] ∧
      (new passing 200).fedSinceClear passing [.publishChunk ⟨[1,2,3,4,5,6,7],200,"pcm_s16le"⟩,.captured] =
        (sinceClear q.source).flatten ++ q.pending :=
  ⟨_,rfl,rfl,(published_frames rfl).2⟩

/-! The end of a turn -/

/-- What a flush has to publish: the pending bytes and the resampler's, up to a whole sample. -/
def evenLength (resampling : Resampling ρ) (p : AudioPublisher ρ) : Nat :=
  let n := (p.pending ++ (resampling.flush p.resampler).2.flatten).length
  n + n % 2

/-- What is left over of so many bytes after a flush. -/
def leftover (size n : Nat) : Nat := if n < size then 0 else n % size

theorem drain_length (call : PublisherCall) (p : AudioPublisher ρ) :
    (p.drain call).pending.length % p.bytesPerFrame = p.pending.length % p.bytesPerFrame ∧
      ((p.drain call).holder = none → (p.drain call).pending.length < p.bytesPerFrame) := by
  unfold drain
  split
  · next hlong =>
    refine ⟨?_,fun h => by cases h⟩
    rw [List.length_drop]
    exact (Nat.mod_eq_sub_mod hlong).symm
  · next hshort => exact ⟨rfl,fun _ => Nat.lt_of_not_le hshort⟩

theorem padded_mod {size n : Nat} (hsize : 0 < size) {zeros : Nat}
    (hzeros : zeros = if n = 0 then 0 else n % 2 + if n + n % 2 < size then size - (n + n % 2) else 0) :
    (n + zeros) % size = leftover size (n + n % 2) := by
  subst hzeros
  unfold leftover
  by_cases hn : n = 0
  · subst hn
    simp [hsize]
  · rw [if_neg hn]
    split
    · next hshort =>
      have hfull : n + (n % 2 + (size - (n + n % 2))) = size := by omega
      rw [hfull,Nat.mod_self]
    · rw [Nat.add_zero]

theorem enter_flush_length (resampling : Resampling ρ) (hsize : 0 < p.bytesPerFrame) :
    (p.enter resampling .flush).pending.length % p.bytesPerFrame = leftover p.bytesPerFrame (p.evenLength resampling) ∧
      ((p.enter resampling .flush).holder = none → (p.enter resampling .flush).pending.length < p.bytesPerFrame) := by
  have hlength (audio : Bytes) : (p.pending ++ audio ++ p.padding (p.pending ++ audio).length).length % p.bytesPerFrame =
      leftover p.bytesPerFrame ((p.pending ++ audio).length + (p.pending ++ audio).length % 2) := by
    rw [List.length_append]
    refine padded_mod hsize ?_
    unfold padding
    dsimp only
    split
    · rfl
    · rw [List.length_replicate]
  unfold enter input evenLength
  dsimp only
  split
  · next hnone =>
    have hempty : p.pending ++ (resampling.flush p.resampler).2.flatten ++
        p.padding (p.pending ++ (resampling.flush p.resampler).2.flatten).length = [] := hnone.2
    have hmod := hlength (resampling.flush p.resampler).2.flatten
    rw [hempty] at hmod ⊢
    exact ⟨hmod,fun _ => hsize⟩
  · obtain ⟨hmod,hfree⟩ := drain_length .flush {
      p with
      resampler := { p.resampler with buffered := (resampling.flush p.resampler).1 }
      pending := p.pending ++ (resampling.flush p.resampler).2.flatten ++
        p.padding (p.pending ++ (resampling.flush p.resampler).2.flatten).length
      turnPcm := p.turnPcm ++ (resampling.flush p.resampler).2.flatten }
    exact ⟨hmod.trans (hlength _),hfree⟩

/-- While a call holds the lock and nothing is cleared or cancelled, the pending bytes go frame by frame. -/
theorem held_step_length (hquiet : l ≠ .clear ∧ l ≠ .cancel) (hheld : p.holder = some call)
    (hs : p.step resampling l = some q) :
    q.bytesPerFrame = p.bytesPerFrame ∧ q.pending.length % p.bytesPerFrame = p.pending.length % p.bytesPerFrame ∧
      (q.holder = none → q.pending.length < p.bytesPerFrame) := by
  have hwaits (call : PublisherCall) (p : AudioPublisher ρ) (h : p.holder ≠ none) :
      p.acquire resampling call = { p with waiting := p.waiting ++ [call] } := by
    unfold acquire
    rw [if_neg fun hfree => h hfree.1]
  have hsome : p.holder ≠ none := by
    rw [hheld]
    exact Option.some_ne_none call
  cases l with
  | publishChunk chunk =>
    simp only [step] at hs
    split at hs
    · cases hs
      exact ⟨rfl,rfl,fun h => absurd h hsome⟩
    · next resampler frames _ =>
      rw [hwaits (.publishChunk frames) { p with resampler } hsome] at hs
      cases hs
      exact ⟨rfl,rfl,fun h => absurd h hsome⟩
  | flush =>
    simp only [step] at hs
    rw [hwaits .flush p hsome] at hs
    cases hs
    exact ⟨rfl,rfl,fun h => absurd h hsome⟩
  | clear => exact absurd rfl hquiet.1
  | wake => simp [step,hheld] at hs
  | captured =>
    simp only [step,hheld,Option.map_some,Option.some.injEq] at hs
    subst hs
    obtain ⟨frames,hcuts⟩ := cuts_drain call p
    refine ⟨?_,drain_length call p⟩
    unfold bytesPerFrame
    rw [hcuts.sampleRate]
  | cancel => exact absurd rfl hquiet.2
  | withdraw n =>
    simp only [step] at hs
    split at hs
    · cases hs
      exact ⟨rfl,rfl,fun h => absurd h hsome⟩
    · cases hs

/-- A flush that nobody clears or cancels, whatever else is called meanwhile: what it leaves
pending is what a whole number of frames leaves over, unless all fits in one frame. -/
theorem flush_leaves {ls : List PublisherLabel} (hsize : 0 < p.bytesPerFrame)
    (hrun : run (step resampling) (p.enter resampling .flush) ls = some q)
    (hquiet : ∀ l ∈ ls, l ≠ .clear ∧ l ≠ .cancel)
    (hheld : ∀ past l, past ++ [l] <+: ls → ∀ t, run (step resampling) (p.enter resampling .flush) past = some t →
      t.holder = some .flush) (hfree : q.holder = none) :
    q.pending.length = leftover p.bytesPerFrame (p.evenLength resampling) ∧
      (q.pending = [] ↔ p.evenLength resampling < p.bytesPerFrame ∨ p.bytesPerFrame ∣ p.evenLength resampling) := by
  have hentered := enter_flush_length resampling hsize
  have hrate : (p.enter resampling .flush).bytesPerFrame = p.bytesPerFrame := by
    obtain ⟨frames,hcuts⟩ := cuts_enter resampling .flush p
    unfold bytesPerFrame
    rw [hcuts.sampleRate]
  have hinv : q.bytesPerFrame = p.bytesPerFrame ∧
      q.pending.length % p.bytesPerFrame = leftover p.bytesPerFrame (p.evenLength resampling) ∧
      (q.holder = none → q.pending.length < p.bytesPerFrame) := by
    clear hfree
    induction ls using List.reverseRecOn generalizing q with
    | nil =>
      cases hrun
      exact ⟨hrate,hentered⟩
    | append_singleton past l ih =>
      obtain ⟨t,ht,hs⟩ := run_concat_eq_some.mp hrun
      have hpast := ih ht (fun m hm => hquiet m (List.mem_append_left _ hm))
        fun earlier m hp => hheld earlier m (hp.trans (List.prefix_append past [l]))
      obtain ⟨hsame,hmod,-⟩ := hpast
      have hstep := held_step_length (hquiet l (List.mem_append_right _ (List.mem_singleton_self l)))
        (hheld past l List.prefix_rfl t ht) hs
      rw [hsame] at hstep
      exact ⟨hstep.1,hstep.2.1.trans hmod,hstep.2.2⟩
  have hlength : q.pending.length = leftover p.bytesPerFrame (p.evenLength resampling) := by
    rw [← hinv.2.1,Nat.mod_eq_of_lt (hinv.2.2 hfree)]
  refine ⟨hlength,?_⟩
  rw [← List.length_eq_zero_iff,hlength]
  unfold leftover
  split
  · next hshort => exact ⟨fun _ => .inl hshort,fun _ => rfl⟩
  · next hlong => exact ⟨fun h => .inr (Nat.dvd_of_mod_eq_zero h),fun h => Nat.mod_eq_zero_of_dvd (h.resolve_left hlong)⟩

/-- A publisher with six bytes, at four bytes a frame. -/
def sixBytes : AudioPublisher Unit := { new passing 200 with pending := [1,2,3,4,5,6] }

theorem two_bytes_left : ∃ q, run (step passing) (sixBytes.enter passing .flush) [.captured] = some q ∧
    q.holder = none ∧ q.pending.length = leftover 4 6 := by
  have hrun : ∃ q, run (step passing) (sixBytes.enter passing .flush) [.captured] = some q ∧ q.holder = none :=
    ⟨_,rfl,rfl⟩
  obtain ⟨q,hrun,hfree⟩ := hrun
  have hsize : 0 < sixBytes.bytesPerFrame := by decide
  have hheld (past : List PublisherLabel) (l : PublisherLabel) (hpast : past ++ [l] <+: [.captured]) (t : AudioPublisher Unit)
      (ht : run (step passing) (sixBytes.enter passing .flush) past = some t) : t.holder = some .flush := by
    cases past with
    | nil =>
      cases ht
      rfl
    | cons m past => simpa using hpast.length_le
  exact ⟨q,hrun,hfree,(flush_leaves hsize hrun (by decide) hheld hfree).1⟩

/-! The rate of the resampler -/

/-- A chunk for whose rate a resampler is opened anew. -/
def unexpected (sampleRate : Nat) : PublisherLabel → Bool
  | .publishChunk chunk => wholeSamples chunk.data ≠ [] && sourceRate chunk ≠ sampleRate && sourceRate chunk ≠ ttsSampleRate
  | _ => false

theorem drain_resampler (call : PublisherCall) (p : AudioPublisher ρ) : (p.drain call).resampler = p.resampler := by
  unfold drain
  split <;> rfl

theorem enter_rates (resampling : Resampling ρ) (call : PublisherCall) (p : AudioPublisher ρ) :
    (p.enter resampling call).resampler.inputRate = p.resampler.inputRate := by
  have hinput : (p.input resampling call).1.inputRate = p.resampler.inputRate := by
    cases call <;> rfl
  unfold enter
  dsimp only
  split
  · exact hinput
  · rw [drain_resampler]
    exact hinput

theorem acquire_rates (resampling : Resampling ρ) (call : PublisherCall) (p : AudioPublisher ρ) :
    (p.acquire resampling call).resampler.inputRate = p.resampler.inputRate := by
  unfold acquire
  split
  · exact enter_rates resampling call p
  · rfl

theorem resample_rate {chunk : AudioChunk} {resampler : OpenResampler ρ} {frames : List Bytes}
    (h : p.resample resampling chunk = some (resampler,frames)) :
    wholeSamples chunk.data ≠ [] ∧ resampler.inputRate =
      if sourceRate chunk ≠ p.sampleRate ∧ sourceRate chunk ≠ ttsSampleRate then sourceRate chunk
      else p.resampler.inputRate := by
  unfold resample at h
  dsimp only at h
  split at h
  · cases h
  · next hdata =>
    refine ⟨hdata,?_⟩
    split at h
    · next hsame =>
      cases h
      rw [if_neg fun hrate => hrate.1 hsame]
    · next hother =>
      cases h
      by_cases hrate : sourceRate chunk ≠ ttsSampleRate
      · rw [if_pos hrate,if_pos ⟨hother,hrate⟩]
        rfl
      · rw [if_neg hrate,if_neg fun h => hrate h.2]

/-- Only a chunk of an unexpected rate has another resampler opened, and never one for speech. -/
theorem step_rate (hs : p.step resampling l = some q) :
    q.resampler.inputRate = p.resampler.inputRate ∧ unexpected p.sampleRate l = false ∨
      q.resampler.inputRate ≠ ttsSampleRate ∧ unexpected p.sampleRate l = true := by
  cases l with
  | publishChunk chunk =>
    simp only [step] at hs
    cases hresample : p.resample resampling chunk with
    | none =>
      simp only [hresample] at hs
      cases hs
      have hempty : wholeSamples chunk.data = [] := by
        by_contra hdata
        simp only [resample,if_neg hdata] at hresample
        split at hresample <;> cases hresample
      exact .inl ⟨rfl,by simp [unexpected,hempty]⟩
    | some resampled =>
      obtain ⟨resampler,frames⟩ := resampled
      simp only [hresample] at hs
      cases hs
      obtain ⟨hdata,hrate⟩ := resample_rate hresample
      rw [acquire_rates]
      by_cases hother : sourceRate chunk ≠ p.sampleRate ∧ sourceRate chunk ≠ ttsSampleRate
      · rw [if_pos hother] at hrate
        exact .inr ⟨fun h => hother.2 (hrate.symm.trans h),by simp [unexpected,hdata,hother]⟩
      · rw [if_neg hother] at hrate
        refine .inl ⟨hrate,?_⟩
        rw [← Bool.not_eq_true]
        intro h
        simp only [unexpected,Bool.and_eq_true,decide_eq_true_eq] at h
        exact hother ⟨h.1.2,h.2⟩
  | flush =>
    cases hs
    exact .inl ⟨acquire_rates resampling .flush p,rfl⟩
  | clear =>
    cases hs
    exact .inl ⟨rfl,rfl⟩
  | wake =>
    simp only [step] at hs
    split at hs
    · cases hs
      exact .inl ⟨enter_rates resampling _ _,rfl⟩
    · cases hs
  | captured =>
    obtain ⟨call,-,rfl⟩ := Option.map_eq_some_iff.mp hs
    exact .inl ⟨congrArg _ (drain_resampler call p),rfl⟩
  | cancel =>
    obtain ⟨call,-,rfl⟩ := Option.map_eq_some_iff.mp hs
    exact .inl ⟨rfl,rfl⟩
  | withdraw n =>
    simp only [step] at hs
    split at hs
    · cases hs
      exact .inl ⟨rfl,rfl⟩
    · cases hs

theorem sampleRate_step (hs : p.step resampling l = some q) : q.sampleRate = p.sampleRate := by
  by_cases hl : l = .clear
  · subst hl
    cases hs
    rfl
  · exact (cuts_step hl hs).choose_spec.sampleRate

/-- A chunk that is resampled goes to a resampler of its own rate, unless it is speech at the usual
rate and a chunk of an unexpected rate has been published at any time before: the resampler
opened for that one stays. -/
theorem resampled_at_own_rate {sampleRate : Nat} {ls : List PublisherLabel} {chunk : AudioChunk}
    {resampler : OpenResampler ρ} {frames : List Bytes}
    (hrun : run (step resampling) (new resampling sampleRate) ls = some q)
    (hresample : q.resample resampling chunk = some (resampler,frames)) (hother : sourceRate chunk ≠ sampleRate) :
    resampler.inputRate = sourceRate chunk ↔
      sourceRate chunk ≠ ttsSampleRate ∨ ∀ l ∈ ls, unexpected sampleRate l = false := by
  have hinv : q.sampleRate = sampleRate ∧
      (q.resampler.inputRate = ttsSampleRate ↔ ∀ l ∈ ls, unexpected sampleRate l = false) := by
    clear hresample
    induction ls using List.reverseRecOn generalizing q with
    | nil =>
      cases hrun
      exact ⟨rfl,fun _ l hl => (by cases hl),fun _ => rfl⟩
    | append_singleton past l ih =>
      obtain ⟨t,ht,hs⟩ := run_concat_eq_some.mp hrun
      obtain ⟨hsame,hpast⟩ := ih ht
      refine ⟨(sampleRate_step hs).trans hsame,?_⟩
      have hstep := step_rate hs
      rw [hsame] at hstep
      simp only [List.forall_mem_append,List.forall_mem_singleton]
      rcases hstep with ⟨hrate,hl⟩ | ⟨hrate,hl⟩
      · rw [hrate,hpast,hl]
        exact ⟨fun h => ⟨h,rfl⟩,fun h => h.1⟩
      · rw [hl]
        exact ⟨fun h => absurd h hrate,fun h => by cases h.2⟩
  obtain ⟨hsame,hspeech⟩ := hinv
  obtain ⟨-,hrate⟩ := resample_rate hresample
  rw [hsame] at hrate
  by_cases htts : sourceRate chunk = ttsSampleRate
  · rw [if_neg fun h => h.2 htts] at hrate
    rw [hrate,htts,hspeech]
    exact ⟨.inr,fun h => h.resolve_left fun h => h rfl⟩
  · rw [if_pos ⟨hother,htts⟩] at hrate
    exact ⟨fun _ => .inl htts,fun _ => hrate⟩

theorem speech_at_the_wrong_rate : ∃ (q : AudioPublisher Unit) (resampler : OpenResampler Unit) (frames : List Bytes),
    run (step passing) (new passing 48000) [.publishChunk ⟨[1,2],16000,"pcm_s16le"⟩] = some q ∧
      q.resample passing ⟨[3,4],24000,"pcm_s16le"⟩ = some (resampler,frames) ∧ resampler.inputRate ≠ 24000 := by
  have hrun : ∃ (q : AudioPublisher Unit) (resampler : OpenResampler Unit) (frames : List Bytes),
      run (step passing) (new passing 48000) [.publishChunk ⟨[1,2],16000,"pcm_s16le"⟩] = some q ∧
        q.resample passing ⟨[3,4],24000,"pcm_s16le"⟩ = some (resampler,frames) := ⟨_,_,_,rfl,rfl⟩
  obtain ⟨q,resampler,frames,hrun,hresample⟩ := hrun
  refine ⟨q,resampler,frames,hrun,hresample,fun h => ?_⟩
  have hearlier := (resampled_at_own_rate hrun hresample (by decide)).mp h
  revert hearlier
  decide

end calls

end AudioPublisher
end VoxForge.Livekit
