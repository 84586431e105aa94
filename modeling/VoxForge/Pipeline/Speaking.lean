import VoxForge.Pipeline.Sentences
import VoxForge.Pipeline.TurnOperations

/-! What a turn puts out and what it does about an interrupt: the tokens that are heard, the
sentences asked of the synthesis, what is saved, and how an interrupt is counted and told. -/
namespace VoxForge.Pipeline.VoicePipelineService
open Foundation Core Persistence Sessions Handoffs HandoffOrchestrator Prog SentenceBuffer

/-- A check of the event, by what came before it: the generator's next event or its end, a token
that was given to `on_token`, or a chunk. -/
inductive Check where
  | generator
  | token
  | chunk
  deriving DecidableEq, Repr

/-- The first check that finds the event set, with the text heard so far. -/
structure Finding where
  check : Check
  heard : String
  /-- The generator has gone on or ended since. -/
  resumed : Bool := false
  deriving DecidableEq, Repr

namespace Finding

/-- All that was heard has been said, up to whitespace. -/
def saidAll (f : Finding) : Bool := isBlank (after f.heard.toList)

/-- How often the counter is incremented in the end. -/
def increments (f : Finding) : Nat :=
  match f.check with
  | .generator => if f.saidAll then 0 else 1
  | .token => 1
  | .chunk => if f.saidAll || !f.resumed then 1 else 2

/-- The finding is counted once: where it comes from the generator, there is text left to be
said; where it comes from a chunk, there is none or the generator does not go on. -/
def Once (f : Finding) : Prop :=
  match f.check with
  | .generator => f.saidAll = false
  | .token => True
  | .chunk => f.saidAll = true ∨ f.resumed = false

theorem once_iff (f : Finding) : f.Once ↔ f.increments = 1 := by
  unfold Once increments
  cases f.check with
  | generator => cases f.saidAll <;> simp
  | token => simp
  | chunk => cases f.saidAll <;> cases f.resumed <;> simp

theorem increments_eq_zero_iff (f : Finding) : f.increments = 0 ↔ f.check = .generator ∧ f.saidAll = true := by
  unfold increments
  cases f.check with
  | generator => cases f.saidAll <;> simp
  | token => simp
  | chunk => cases f.saidAll <;> cases f.resumed <;> simp

theorem increments_le_one {f : Finding} (h : f.resumed = false) : f.increments ≤ 1 := by
  unfold increments
  cases f.check with
  | generator => cases f.saidAll <;> simp
  | token => simp
  | chunk => simp [h]

end Finding

/-- What has come of a turn. -/
structure Output where
  /-- The last operation was a check that found the event unset. -/
  clear : Bool := false
  /-- The tokens given to `on_token`, joined. -/
  heard : String := ""
  requested : List String := []
  /-- The assistant's messages, as rows and in the generator's history. -/
  rows : List String := []
  history : List String := []
  increments : Nat := 0
  check : Check := .generator
  finding : Option Finding := none
  /-- What the evaluation, the handoff policy and the outcomes were told. -/
  told : List Bool := []
  /-- The event and the counter did not fail, and the event stayed set. -/
  steady : Bool := true
  deriving DecidableEq, Repr

namespace Output

def due (c : Output) : Finding := c.finding.getD ⟨c.check,c.heard,false⟩

/-- A check of the event. -/
def look (c : Output) : Bool → Output
  | true => { c with clear := false, finding := some c.due }
  | false => { c with clear := true, steady := c.steady && c.finding.isNone }

def note (c : Output) : (o : TurnOp) → Except Err (TurnReply o) → Output
  | .inr .nextEvent,.ok _ =>
    { c with check := .generator, finding := c.finding.map fun f => { f with resumed := true } }
  | .inr (.onToken text),_ => { c with heard := c.heard ++ text, check := .token }
  | .inr (.synthesizeStream sentence),_ => { c with requested := c.requested ++ [sentence], check := .chunk }
  | .inr (.nextChunk _),_ => { c with check := .chunk }
  | .inr .turnsInterrupted,r => { c with increments := c.increments + 1, steady := c.steady && r.isOk }
  | .inr (.addAssistantMessage text),_ => { c with history := c.history ++ [text] }
  | .inl (.insertMessage ⟨.assistant,text⟩),_ => { c with rows := c.rows ++ [text] }
  | .inr (.evaluateTurn interrupted),_ | .inr (.evaluatePolicy interrupted),_ | .inr (.recordOutcome interrupted),_ =>
    { c with told := c.told ++ [interrupted] }
  | _,_ => c

def after (c : Output) : (o : TurnOp) → Except Err (TurnReply o) → Output
  | .inr .interruptSet,.ok (set : Bool) => c.look set
  | .inr .interruptSet,.error _ => { c with clear := false, steady := false }
  | o,r => { c.note o r with clear := false }

end Output

/-- What the caller of a turn hears, and the requests for what it will hear. -/
def Emits : TurnOp → Prop
  | .inr (.onToken _) | .inr .onAudio | .inr (.synthesizeStream _) => True
  | _ => False

/-- A turn emits only right after it has found the event unset. -/
def outputs : Discipline TurnOp TurnReply Err Output where
  allowed c o := Emits o → c.clear = true
  possible _ _ := True
  after := Output.after

namespace Output

theorem after_other {o : TurnOp} (h : o ≠ .inr .interruptSet) (c : Output) (r : Except Err (TurnReply o)) :
    outputs.after c o r = { c.note o r with clear := false } := by
  rcases o with o | o
  · rfl
  · cases o <;> first | rfl | exact absurd rfl h

theorem note_finding (c : Output) (o : TurnOp) (r : Except Err (TurnReply o)) :
    (c.note o r).finding.isSome = c.finding.isSome := by
  unfold note
  split <;> simp

theorem note_steady {c : Output} {o : TurnOp} {r : Except Err (TurnReply o)} (hsteady : c.steady = true)
    (hcounted : o = .inr .turnsInterrupted → r.isOk = true) : (c.note o r).steady = true := by
  unfold note
  split
  case h_5 => exact Bool.and_eq_true_iff.mpr ⟨hsteady,hcounted rfl⟩
  all_goals exact hsteady

end Output

/-- What neither emits nor is noted. -/
def Aside : TurnOp → Prop
  | .inl (.insertMessage message) => message.role ≠ .assistant
  | .inl _ => True
  | .inr (.storeTurn _ _) | .inr (.addUserMessage _) | .inr .onAgentStep | .inr (.onError _ _) => True
  | .inr .getLastAgentTrace | .inr .saveTurnMetrics | .inr (.retrieveContext _) | .inr (.retrieveSnippets _) => True
  | .inr .commit | .inr .onMetrics => True
  | _ => False

theorem aside_ordinary {o : Op} (h : Ordinary o) : Aside (.inl o) := by
  cases o <;> first | exact h.elim | trivial

theorem Output.after_aside {o : TurnOp} (h : Aside o) (c : Output) (r : Except Err (TurnReply o)) :
    outputs.allowed c o ∧ outputs.after c o r = { c with clear := false } := by
  rcases o with o | o
  · refine ⟨nofun,?_⟩
    cases o with
    | insertMessage message =>
      obtain ⟨role,text⟩ := message
      cases role <;> first | exact absurd rfl h | rfl
    | _ => rfl
  · cases o <;> first | exact h.elim | exact ⟨nofun,rfl⟩

section aside
variable {α β : Type} {c : Output} {post : Output → Except Err β → Prop}

/-- Asides change nothing but that the last check lies further back. -/
theorem wp_aside {p : Awaits α} (hp : Performs Aside p) :
    wp outputs c p fun c' _ => ∃ clear, c' = { c with clear } := by
  induction p generalizing c with
  | ret a => exact ⟨c.clear,rfl⟩
  | raise e => exact ⟨c.clear,rfl⟩
  | call o k ih =>
    refine ⟨(Output.after_aside hp.1 c (.error .fault)).1,fun r _ => ?_⟩
    rw [(Output.after_aside hp.1 c r).2]
    apply wp_mono (ih r (hp.2 r))
    rintro c' _ ⟨clear,rfl⟩
    exact ⟨clear,rfl⟩

theorem wp_aside_then {p : Awaits α} {f : α → Awaits β} (hp : Performs Aside p)
    (herror : ∀ clear e, post { c with clear } (.error e)) (hok : ∀ clear a, wp outputs { c with clear } (f a) post) :
    wp outputs c (p >>= f) post := by
  rw [wp_bind]
  apply wp_mono (wp_aside hp)
  rintro _ r ⟨clear,rfl⟩
  cases r with
  | ok a => exact hok clear a
  | error e => exact herror clear e

theorem wp_attempt_then {p : Awaits α} {f : Except Err α → Awaits β}
    (h : wp outputs c p fun c' r => wp outputs c' (f r) post) : wp outputs c (attempt p >>= f) post := by
  rw [wp_bind]
  refine (wp_tryCatch _ _ _).mpr ((wp_bind _ _ _).mpr (wp_mono h fun c' r hr => ?_))
  cases r <;> exact hr

end aside

/-! One sentence -/

/-- What the turn has heard and asked to be said, where `rest` is still to be said. -/
structure Kept (text : String) (rest : List Char) (c : Output) : Prop where
  heard : c.heard = text
  said : visible (joined c.requested) ++ visible rest = visible text.toList
  rows : c.rows = []
  history : c.history = []
  told : c.told = []

theorem Kept.congr {text : String} {rest rest' : List Char} {c : Output} (h : Kept text rest c)
    (hrest : visible rest = visible rest') : Kept text rest' c :=
  { h with said := hrest ▸ h.said }

/-- No interrupt was found, noted or counted. -/
def Unnoticed (speech : Speech) (c : Output) : Prop :=
  c.steady = true → speech.interrupted = false ∧ c.finding = none ∧ c.increments = 0

/-- What a sentence leaves. -/
def Left (speech : Speech) (sentence rest : List Char) (c : Output) : Except Err Said → Prop
  | .ok .refused => Kept speech.text (sentence ++ rest) c ∧
      (c.steady = true → ∃ f, c.finding = some f ∧ c.increments = f.increments)
  | .ok .cutOff => Kept speech.text rest c ∧
      (c.steady = true → c.finding = some ⟨.chunk,speech.text,false⟩ ∧ c.increments = 1)
  | .ok .whole => Kept speech.text rest c ∧ Unnoticed speech c
  | .error _ => (∃ rest, Kept speech.text rest c) ∧ Unnoticed speech c

section sentence
variable {speech : Speech} {sentence rest : List Char} {c : Output}

theorem steady_of_counted {r : Except Err Unit} (h : (outputs.after c (.inr .turnsInterrupted) r).steady = true) :
    c.steady = true ∧ r.isOk = true := Bool.and_eq_true_iff.mp h

theorem synthesize_left (text : String) (n : Nat) (hkept : Kept speech.text rest c) (hcheck : c.check = .chunk)
    (hnone : Unnoticed speech c) : wp outputs c (synthesize text n) (Left speech sentence rest) := by
  induction n generalizing c with
  | zero => exact ⟨hkept,hnone⟩
  | succ n ih =>
    unfold synthesize
    refine wp_perform_then nofun (fun e => ⟨⟨rest,{ hkept with }⟩,nofun⟩) fun set => ?_
    cases set with
    | true =>
      -- the chunk is dropped and the interrupt counted
      refine wp_perform_then nofun (fun e => ⟨⟨rest,{ hkept with }⟩,fun hsteady => ?_⟩) fun u =>
        ⟨{ hkept with },fun hsteady => ?_⟩
      · cases (steady_of_counted hsteady).2
      · obtain ⟨-,hfinding,hincrements⟩ := hnone (steady_of_counted hsteady).1
        simp [outputs,Output.after,Output.note,Output.look,Output.due,hfinding,hincrements,hcheck,hkept.heard]
    | false =>
      have hlater : Unnoticed speech (outputs.after c (.inr .interruptSet) (.ok false)) := fun hsteady =>
        hnone (Bool.and_eq_true_iff.mp hsteady).1
      refine wp_perform_then (fun _ => rfl) (fun e => ⟨⟨rest,{ hkept with }⟩,hlater⟩) fun u => ?_
      refine wp_perform_then nofun (fun e => ⟨⟨rest,{ hkept with }⟩,hlater⟩) fun u => ?_
      exact ih { hkept with } rfl hlater

theorem say_left (text : String) (hsentence : text.toList = sentence) (hkept : Kept speech.text (sentence ++ rest) c)
    (hnoted : c.steady = true → speech.interrupted = c.finding.isSome)
    (hdue : c.steady = true → c.increments + 1 = c.due.increments) :
    wp outputs c (say text) (Left speech sentence rest) := by
  subst hsentence
  unfold say
  refine wp_perform_then nofun (fun e => ⟨⟨_,{ hkept with }⟩,nofun⟩) fun set => ?_
  cases set with
  | true =>
    refine wp_perform_then nofun (fun e => ⟨⟨_,{ hkept with }⟩,fun hsteady => ?_⟩) fun u =>
      ⟨{ hkept with },fun hsteady => ?_⟩
    · cases (steady_of_counted hsteady).2
    · exact ⟨c.due,rfl,hdue (steady_of_counted hsteady).1⟩
  | false =>
    have hlater : Unnoticed speech (outputs.after c (.inr .interruptSet) (.ok false)) := by
      intro hsteady
      obtain ⟨hbefore,hnone⟩ := Bool.and_eq_true_iff.mp hsteady
      have hfinding : c.finding = none := Option.isNone_iff_eq_none.mp hnone
      have hcount := hdue hbefore
      have hone : c.due.increments ≤ 1 := Finding.increments_le_one (by simp [Output.due,hfinding])
      have hincrements : c.increments = 0 := by omega
      exact ⟨by rw [hnoted hbefore,hfinding]; rfl,hfinding,hincrements⟩
    have hrequested : Kept speech.text rest (outputs.after (outputs.after c (.inr .interruptSet) (.ok false))
        (.inr (.synthesizeStream text)) (.ok (0 : Nat))) :=
      { hkept with
        said := by
          have hsaid := hkept.said
          rw [visible_append,← List.append_assoc,← visible_append] at hsaid
          simpa [outputs,Output.after,Output.note,Output.look,joined] using hsaid }
    refine wp_perform_then (fun _ => rfl) (fun e => ⟨⟨rest,hrequested⟩,hlater⟩) fun chunks => ?_
    exact synthesize_left text chunks hrequested rfl hlater

end sentence

/-! The speech -/

def Output.counted (c : Output) : Nat := (c.finding.map Finding.increments).getD 0

/-- The interrupt is noted, and counted as its finding says. -/
def Tallied (speech : Speech) (c : Output) : Prop :=
  c.steady = true → speech.interrupted = c.finding.isSome ∧ c.increments = c.counted

theorem Unnoticed.tallied {speech : Speech} {c : Output} (h : Unnoticed speech c) : Tallied speech c := by
  intro hsteady
  obtain ⟨hspeech,hfinding,hincrements⟩ := h hsteady
  simp [Output.counted,hspeech,hfinding,hincrements]

def Over (speech : Speech) (c : Output) : Prop := (∃ rest, Kept speech.text rest c) ∧ Tallied speech c

/-- The sentence loop goes on: an interrupt that was found has cut off the sentence before. -/
structure Going (speech : Speech) (buffer : List Char) (c : Output) : Prop where
  kept : Kept speech.text buffer c
  held : buffer = SentenceBuffer.after speech.text.toList
  tallied : Tallied speech c
  cut : c.steady = true → ∀ f ∈ c.finding, f = ⟨.chunk,speech.text,false⟩

theorem Over.clear {speech : Speech} {c : Output} (h : Over speech c) (clear : Bool) : Over speech { c with clear } := by
  obtain ⟨⟨rest,hkept⟩,htallied⟩ := h
  exact ⟨⟨rest,{ hkept with }⟩,htallied⟩

theorem Going.over {speech : Speech} {buffer : List Char} {c : Output} (h : Going speech buffer c) : Over speech c :=
  ⟨⟨buffer,h.kept⟩,h.tallied⟩

/-- The tokens are over, and what the buffer holds is due. -/
structure Flushing (speech : Speech) (buffer : List Char) (c : Output) : Prop where
  kept : Kept speech.text buffer c
  noted : c.steady = true → speech.interrupted = c.finding.isSome
  silent : c.steady = true → isBlank buffer = true → c.increments = c.counted
  due : c.steady = true → isBlank buffer = false → c.increments + 1 = c.due.increments

theorem Unnoticed.going {speech : Speech} {buffer : List Char} {c : Output} (h : Unnoticed speech c)
    (hkept : Kept speech.text buffer c) (hheld : buffer = SentenceBuffer.after speech.text.toList) :
    Going speech buffer c := by
  refine ⟨hkept,hheld,h.tallied,fun hsteady f hf => ?_⟩
  rw [(h hsteady).2.1] at hf
  cases hf

/-- What the `try` block leaves. -/
def Closed (c : Output) : Except Err (Speech × Option Err) → Prop
  | .ok (speech,_) => Over speech c
  | .error _ => ∃ speech, Over speech c

def Responded (c : Output) : Except Err Speech → Prop
  | .ok speech => Over speech c
  | .error _ => ∃ speech, Over speech c

section speech
variable {settings : HandoffOrchestrator.Settings} {turn : TurnRequest} {speech : Speech} {buffer : List Char} {c : Output}

/-- The sentence that ends a speech. -/
theorem Left.over {sentence rest : List Char} {said : Said} (h : Left speech sentence rest c (.ok said)) :
    Over (speech.note said) c := by
  cases said with
  | refused =>
    refine ⟨⟨_,h.1⟩,fun hsteady => ?_⟩
    obtain ⟨f,hfinding,hincrements⟩ := h.2 hsteady
    simp [Speech.note,Output.counted,hfinding,hincrements]
  | cutOff =>
    refine ⟨⟨_,h.1⟩,fun hsteady => ?_⟩
    obtain ⟨hfinding,hincrements⟩ := h.2 hsteady
    simp [Speech.note,Output.counted,Finding.increments,hfinding,hincrements]
  | whole =>
    have heq : speech.note .whole = speech := by simp [Speech.note]
    rw [heq]
    exact ⟨⟨_,h.1⟩,h.2.tallied⟩

-- a goal about the rest of the buffer is never settled by computing it
attribute [local irreducible] SentenceBuffer.flush

theorem sayRest_closed (h : Flushing speech buffer c) : wp outputs c (sayRest buffer speech) Closed := by
  unfold sayRest flush
  cases hblank : isBlank buffer with
  | true =>
    rw [if_pos (strip_ofList_eq_empty.mpr hblank)]
    exact ⟨⟨buffer,h.kept⟩,fun hsteady => ⟨h.noted hsteady,h.silent hsteady hblank⟩⟩
  | false =>
    rw [if_neg (mt strip_ofList_eq_empty.mp (Bool.eq_false_iff.mp hblank))]
    have hkept : Kept speech.text ((strip (String.ofList buffer)).toList ++ []) c := h.kept.congr (by simp)
    apply wp_attempt_then
    apply wp_mono (say_left _ rfl hkept h.noted fun hsteady => h.due hsteady hblank)
    intro c' r hleft
    cases r with
    | error e => exact ⟨hleft.1,hleft.2.tallied⟩
    | ok said => exact hleft.over

/-- The generator has gone on, or ended. -/
def Output.resume (c : Output) : Output :=
  { c with
    clear := false
    check := .generator
    finding := c.finding.map fun f => { f with resumed := true } }

theorem aside_reportSteps (n : Nat) : Performs Aside (reportSteps n) := by
  induction n with
  | zero => trivial
  | succ n ih => exact performs_bind (performs_await trivial) fun _ => ih

theorem wp_nextEvent {post : Output → Except Err Unit → Prop} (hok : post c.resume (.ok ()))
    (herror : ∀ e, post { c with clear := false } (.error e)) : wp outputs c (await .nextEvent) post := by
  refine (wp_perform _ _).mpr ⟨nofun,fun r _ => ?_⟩
  cases r with
  | ok u => exact hok
  | error e => exact herror e

theorem wp_produce {post : Output → Except Err Unit → Prop} (event : GenerationEvent)
    (hok : ∀ clear, post { c with clear }.resume (.ok ())) (herror : ∀ clear e, post { c with clear } (.error e)) :
    wp outputs c (produce settings turn event) post := by
  have htools : Performs Ordinary (runTools settings turn.orgId event.tools) :=
    composed_runTools (compositional_performs Ordinary) ordinary_initiateHandoff _ _
  apply wp_aside_then (performs_statements htools fun _ => aside_ordinary) herror
  intro clear _
  refine wp_aside_then (aside_reportSteps event.agentSteps) (fun clear' e => herror clear' e) fun clear' _ => ?_
  exact wp_nextEvent (hok clear') fun e => herror false e

/-- When the tokens end, the finding that stands, or would be made next, is counted but for a
last sentence. -/
theorem Going.due (h : Going speech buffer c) (hsteady : c.steady = true) :
    c.resume.due.increments = c.increments + if isBlank buffer then 0 else 1 := by
  obtain ⟨-,hincrements⟩ := h.tallied hsteady
  have hcut := h.cut hsteady
  have hsaid : isBlank (SentenceBuffer.after speech.text.toList) = isBlank buffer := by rw [h.held]
  rw [hincrements]
  unfold Output.counted Output.due Output.resume
  cases hfinding : c.finding with
  | none => simp [Finding.increments,Finding.saidAll,h.kept.heard,hsaid]
  | some f =>
    obtain rfl := hcut f hfinding
    cases hblank : isBlank buffer <;> simp [Finding.increments,Finding.saidAll,hsaid,hblank]

/-- The generator has ended. -/
theorem Going.flushing (h : Going speech buffer c) : Flushing speech buffer c.resume := by
  refine ⟨{ h.kept with },fun hsteady => ?_,fun hsteady hblank => ?_,fun hsteady hblank => ?_⟩
  · rw [(h.tallied hsteady).1]
    exact Option.isSome_map.symm
  · have hdue := h.due hsteady
    rw [if_pos hblank,Nat.add_zero] at hdue
    have hincrements := (h.tallied hsteady).2
    cases hfinding : c.finding with
    | none => simpa [Output.counted,Output.resume,hfinding] using hincrements
    | some f => simpa [Output.due,Output.counted,Output.resume,hfinding] using hdue.symm
  · rw [h.due hsteady,if_neg (by simp [hblank])]
    rfl

/-- The generator has gone on, and the event is found set. -/
theorem Going.found (h : Going speech buffer c) :
    Flushing { speech with interrupted := true } buffer (c.resume.look true) := by
  refine ⟨{ h.kept with },fun _ => rfl,fun hsteady hblank => ?_,h.flushing.due⟩
  have hdue := h.due hsteady
  rw [if_pos hblank,Nat.add_zero] at hdue
  exact hdue.symm

/-- The generator has gone on, and the event is found unset. -/
theorem Going.passed (h : Going speech buffer c) : Going speech buffer (c.resume.look false) ∧
    Unnoticed speech (c.resume.look false) := by
  have hnone : (c.resume.look false).steady = true → c.steady = true ∧ c.finding = none := by
    intro hsteady
    obtain ⟨hbefore,hfinding⟩ := Bool.and_eq_true_iff.mp hsteady
    exact ⟨hbefore,by simpa [Output.resume] using hfinding⟩
  have hunnoticed : Unnoticed speech (c.resume.look false) := by
    intro hsteady
    obtain ⟨hbefore,hfinding⟩ := hnone hsteady
    obtain ⟨hspeech,hincrements⟩ := h.tallied hbefore
    refine ⟨by simpa [hfinding] using hspeech,by simp [Output.look,Output.resume,hfinding],?_⟩
    simpa [Output.look,Output.resume,Output.counted,hfinding] using hincrements
  exact ⟨hunnoticed.going { h.kept with } h.held,hunnoticed⟩

theorem Kept.hear (h : Kept speech.text buffer c) (token : String) (r : Except Err Unit) :
    Kept (speech.hear token).text (buffer ++ token.toList) (outputs.after c (.inr (.onToken token)) r) := by
  refine { h with heard := ?_, said := ?_ }
  · exact congrArg (· ++ token) h.heard
  · unfold Speech.hear
    rw [visible_append,← List.append_assoc,String.toList_append,visible_append,← h.said]
    rfl

theorem Unnoticed.hear (h : Unnoticed speech c) (token : String) (r : Except Err Unit) :
    Unnoticed (speech.hear token) (outputs.after c (.inr (.onToken token)) r) := h

/-- The sentence of a token that is followed by another event. -/
theorem Left.going {sentence : List Char} {said : Said} (h : Left speech sentence buffer c (.ok said))
    (hheld : buffer = SentenceBuffer.after speech.text.toList) (hsaid : said ≠ .refused) :
    Going (speech.note said) buffer c := by
  obtain ⟨hover,htallied⟩ := h.over
  cases said with
  | refused => exact absurd rfl hsaid
  | cutOff =>
    refine ⟨h.1,hheld,htallied,fun hsteady f hf => ?_⟩
    rw [(h.2 hsteady).1] at hf
    exact (Option.some.inj hf).symm
  | whole =>
    have heq : speech.note .whole = speech := by simp [Speech.note]
    rw [heq]
    exact h.2.going h.1 hheld

/-- The sentence that a token lets out. -/
theorem Unnoticed.say_left {rest : List Char} (h : Unnoticed speech c) (sentence : String)
    (hkept : Kept speech.text (sentence.toList ++ rest) c) (hcheck : c.check = .token) :
    wp outputs c (say sentence) (Left speech sentence.toList rest) := by
  refine VoicePipelineService.say_left sentence rfl hkept (fun hsteady => ?_) fun hsteady => ?_
  · obtain ⟨hspeech,hfinding,-⟩ := h hsteady
    rw [hspeech,hfinding]
    rfl
  · obtain ⟨-,hfinding,hincrements⟩ := h hsteady
    simp [Output.due,Finding.increments,hfinding,hincrements,hcheck]

theorem converse_closed (events : List GenerationEvent) (h : Going speech buffer c) :
    wp outputs c (converse settings turn events buffer speech) Closed := by
  induction events generalizing buffer speech c with
  | nil =>
    apply wp_attempt_then
    refine wp_nextEvent ?_ fun e => ?_
    · exact sayRest_closed h.flushing
    · exact h.over.clear false
  | cons event rest ih =>
    apply wp_attempt_then
    refine wp_produce event (fun clear => ?_) fun clear e => ?_
    case refine_2 => exact h.over.clear clear
    have hgoing : Going speech buffer { c with clear } := { h with kept := { h.kept with } }
    refine wp_perform_then nofun (fun e => ⟨speech,⟨buffer,{ h.kept with }⟩,nofun⟩) fun set => ?_
    cases set with
    | true =>
      rw [if_pos rfl]
      exact sayRest_closed hgoing.found
    | false =>
      obtain ⟨hpassed,hnone⟩ := hgoing.passed
      dsimp only
      rw [if_neg Bool.false_ne_true]
      by_cases hempty : event.text = ""
      · rw [if_pos hempty]
        exact ih hpassed
      rw [if_neg hempty]
      apply wp_attempt_then
      refine (wp_perform _ _).mpr ⟨fun _ => rfl,fun r _ => ?_⟩
      have hheard := hpassed.kept.hear event.text r
      have hlater := hnone.hear event.text r
      cases r with
      | error e => exact ⟨⟨_,hheard⟩,hlater.tallied⟩
      | ok u =>
        dsimp only
        rw [hpassed.held] at hheard ⊢
        have hheld : SentenceBuffer.after (speech.text.toList ++ event.text.toList) =
            SentenceBuffer.after (speech.hear event.text).text.toList :=
          congrArg SentenceBuffer.after String.toList_append.symm
        rcases add_cases speech.text.toList event.text with
          ⟨e,held,hadd⟩ | ⟨hadd,hvisible⟩ | ⟨sentence,hadd,hvisible⟩
        · rw [hadd]
          exact ⟨⟨_,hheard⟩,hlater.tallied⟩
        · rw [hadd]
          exact ih (hlater.going (hheard.congr hvisible) hheld)
        · rw [hadd]
          apply wp_attempt_then
          apply wp_mono (hlater.say_left sentence (hheard.congr hvisible) rfl)
          intro c' r hleft
          match r with
          | .error e => exact ⟨hleft.1,hleft.2.tallied⟩
          | .ok .refused => exact hleft.over
          | .ok .cutOff => exact ih (hleft.going hheld nofun)
          | .ok .whole => exact ih (hleft.going hheld nofun)

theorem going_fresh (clear : Bool) : Going {} [] { clear := clear } :=
  ⟨⟨rfl,rfl,rfl,rfl,rfl⟩,rfl,fun _ => ⟨rfl,rfl⟩,nofun⟩

/-- Generation and synthesis, from the start of a turn. -/
theorem respond_over (clear : Bool) : wp outputs { clear := clear } (respond settings turn) Responded := by
  apply (wp_bind _ _ _).mpr
  apply wp_mono (converse_closed turn.events (going_fresh clear))
  intro c r hclosed
  match r with
  | .error e => exact hclosed
  | .ok (speech,none) => exact hclosed
  | .ok (speech,some e) =>
    by_cases hcancelled : e = .cancelled
    · subst hcancelled
      exact ⟨speech,hclosed⟩
    have hreported : wp outputs c (await (.onError "tts_error" "Speech synthesis failed") >>= fun _ =>
        (pure speech : Awaits Speech)) Responded :=
      wp_aside_then (performs_await trivial) (fun clear _ => ⟨speech,hclosed.clear clear⟩) fun clear _ => hclosed.clear clear
    cases e <;> first | exact hreported | exact absurd rfl hcancelled

end speech
end VoxForge.Pipeline.VoicePipelineService
