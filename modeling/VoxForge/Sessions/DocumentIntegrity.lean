import VoxForge.Sessions.DocumentReadings

/-! Interrupts, sequence numbers, phases and the deletion of a session under any
interleaving: each survives as long as the writes that could undo it have read it. -/
namespace VoxForge.Sessions
open Foundation Core Persistence Prog

theorem effect_sequence (m : Mutator) (d : Streaming) : (m.effect d).sequence = d.sequence + m.raise := by
  cases m <;> simp [Mutator.effect,Mutator.raise]

theorem effect_phase (m : Mutator) (d : Streaming) :
    (m.setsPhase = false ∧ (m.effect d).phase = d.phase) ∨ m = .updatePhase (m.effect d).phase := by
  cases m <;> simp [Mutator.effect,Mutator.setsPhase]

theorem raise_of_neutral {m : Mutator} (h : m.Neutral) : m.raise = 0 := by
  have hsame := congrArg Streaming.sequence (h ⟨.idle,0,false⟩)
  rw [effect_sequence] at hsame
  simpa using hsame

theorem setsPhase_of_neutral {m : Mutator} (h : m.Neutral) : m.setsPhase = false := by
  have hraise := raise_of_neutral h
  cases m with
  | updatePhase phase => cases hraise
  | _ => rfl

namespace Account
variable {a : Account} {m : Mutator} {v readAt : Nat} {b : Option Streaming} {new : Streaming}

theorem missed_write_of_same (h : a.document.map (·.sequence) = some new.sequence) :
    (a.write m readAt new).missed v = a.missed v := by
  simp [missed,write,h]

theorem missed_write (hv : v ≤ a.version) (h : a.document.map (·.sequence) ≠ some new.sequence) :
    (a.write m readAt new).missed v = a.missed v + 1 := by
  have hlate : v < a.version + 1 := by omega
  simp [missed,write,h,hlate]

/-- The interrupt that is due was in every document read since it was set. -/
def Flagged (a : Account) (v : Nat) (b : Option Streaming) : Prop :=
  ∀ w ∈ a.due, w ≤ v → ∃ d, b = some d ∧ d.interrupt = true

/-- The sequence has risen by one with each change since a document was read; and where
none was, one has been created since. -/
def Counted (a : Account) (v : Nat) : Option Streaming → Prop
  | some d => (∀ w ∈ a.deletedAt, w ≤ v) →
    ∃ stored, a.document = some stored ∧ d.sequence ≤ stored.sequence ∧ stored.sequence ≤ d.sequence + a.missed v
  | none => a.document.isSome → 0 < a.missed v

/-- The stored phase was in every document read since it was written. -/
def Phased (a : Account) (v : Nat) (b : Option Streaming) : Prop :=
  ∀ stored ∈ a.document, a.phaseAt ≤ v → ∃ d, b = some d ∧ d.phase = stored.phase

/-- Since the deletion no document has been read. -/
def Gone (a : Account) (v : Nat) (b : Option Streaming) : Prop := ∀ w ∈ a.deletedAt, w ≤ v → b = none

theorem Flagged.write (hv : v ≤ a.version) (h : a.Flagged v b) : (a.write m readAt new).Flagged v b := by
  intro w hw hle
  cases m with
  | setInterrupt =>
    cases hw
    omega
  | clearInterrupt => exact h w (Option.filter_eq_some_iff.mp hw).1 hle
  | _ => exact h w hw hle

theorem Phased.write (hv : v ≤ a.version) (h : a.Phased v b) : (a.write m readAt new).Phased v b := by
  intro stored hstored hle
  cases hstored
  have hle : (if a.document.map (·.phase) = some new.phase then a.phaseAt else a.version + 1) ≤ v := hle
  split at hle
  · next hsame =>
    obtain ⟨before,hbefore,hphase⟩ := Option.map_eq_some_iff.mp hsame
    obtain ⟨d,rfl,hd⟩ := h before hbefore hle
    exact ⟨d,rfl,hd.trans hphase⟩
  · omega

/-- Sequences that rise by at most one keep count. -/
theorem Counted.write (hv : v ≤ a.version) (h : a.Counted v b)
    (hrise : ∀ stored ∈ a.document, stored.sequence ≤ new.sequence ∧ new.sequence ≤ stored.sequence + 1) :
    (a.write m readAt new).Counted v b := by
  by_cases hsame : a.document.map (·.sequence) = some new.sequence
  · obtain ⟨stored,hstored,hsequence⟩ := Option.map_eq_some_iff.mp hsame
    cases b with
    | some d =>
      intro hdeleted
      obtain ⟨stored',hstored',hlow,hhigh⟩ := h hdeleted
      obtain rfl := Option.some_inj.mp (hstored'.symm.trans hstored)
      rw [missed_write_of_same hsame]
      exact ⟨new,rfl,by omega,by omega⟩
    | none =>
      intro _
      rw [missed_write_of_same hsame]
      exact h (by rw [hstored]; rfl)
  · cases b with
    | some d =>
      intro hdeleted
      obtain ⟨stored,hstored,hlow,hhigh⟩ := h hdeleted
      obtain ⟨hup,hone⟩ := hrise stored hstored
      rw [missed_write hv hsame]
      exact ⟨new,rfl,by omega,by omega⟩
    | none =>
      intro _
      rw [missed_write hv hsame]
      omega

end Account

namespace Store
variable {settings : Settings} {s s' : Store} {l : Label} {t : Running} {state : SessionState} {ttlSeconds : Nat}
  {k : Except Err Unit → Action Unit}

theorem document_eq {s : Store} {state : SessionState} (h : s.keys.state = some state) :
    s.document = some (streamingOf state) := by
  rw [document,h]
  rfl

/-! An interrupt that is due -/

/-- A write that has read the interrupt that is due keeps it, or answers it. -/
theorem flagged_written (h : Recorded Account.Flagged s) (hs : s.Sound) (ht : t ∈ s.tasks)
    (hrest : t.rest = .call (.setState state ttlSeconds) k)
    (hfresh : t.mutator = .setInterrupt || s.due.all (· ≤ t.readAt)) :
    (s.account.write t.mutator t.readAt (streamingOf state)).Flagged (s.version + 1) (some (streamingOf state)) := by
  intro w hw _
  refine ⟨_,rfl,?_⟩
  have hfresh (hm : t.mutator ≠ .setInterrupt) (v : Nat) (hv : v ∈ s.due) : v ≤ t.readAt := by
    rw [hv] at hfresh
    simpa [hm] using hfresh
  have hkept (hm : t.mutator ≠ .setInterrupt) (hdue : w ∈ s.due) (heffect : ∀ d, (t.mutator.effect d).interrupt = d.interrupt) :
      (streamingOf state).interrupt = true := by
    rcases h.writer hs ht hrest with ⟨old,hold,hnew⟩ | ⟨hnone,-⟩
    · obtain ⟨d,hd,hflag⟩ := hold w hdue (hfresh hm w hdue)
      cases hd
      rw [hnew,heffect]
      exact hflag
    · obtain ⟨d,hd,-⟩ := hnone w hdue (hfresh hm w hdue)
      cases hd
  cases hm : t.mutator with
  | setInterrupt =>
    rcases h.writer hs ht hrest with ⟨old,-,hnew⟩ | ⟨-,hcreate⟩
    · rw [hnew,hm]
      rfl
    · exact absurd (hcreate.neutral ⟨.idle,0,false⟩) (by rw [hm]; decide)
  | clearInterrupt =>
    rw [hm] at hw
    obtain ⟨hdue,hlate⟩ := Option.filter_eq_some_iff.mp hw
    have hread := hfresh (by simp [hm]) w hdue
    have hlate : t.readAt < w := of_decide_eq_true hlate
    omega
  | recordHeartbeat =>
    rw [hm] at hw
    exact hkept (by simp [hm]) hw (by simp [hm,Mutator.effect])
  | updatePhase phase =>
    rw [hm] at hw
    exact hkept (by simp [hm]) hw (by simp [hm,Mutator.effect])
  | trackToolFailures n =>
    rw [hm] at hw
    exact hkept (by simp [hm]) hw (by simp [hm,Mutator.effect])
  | endSession =>
    rw [hm] at hw
    exact hkept (by simp [hm]) hw (by simp [hm,Mutator.effect])

theorem flagged_step (h : Recorded Account.Flagged s) (hs : s.Sound) (hstep : s.step settings l = some s')
    (hfresh : s.interruptFresh l) : Recorded Account.Flagged s' := by
  refine h.step hs hstep (fun i answers seen hl t ht state ttlSeconds k hrest => ⟨fun v b hv hold => hold.write hv,?_⟩) ?_
  · subst hl
    exact flagged_written h hs (List.mem_of_getElem? ht) hrest (ok_of_writing hfresh ht hrest)
  · exact ⟨fun v b hv hold w hw => (by cases hw),fun w hw => (by cases hw)⟩

theorem interruptKept_of_flagged (h : Recorded Account.Flagged s) (hs : s.Sound) : s.InterruptKept := by
  intro hdue
  obtain ⟨w,hw⟩ := Option.isSome_iff_exists.mp hdue
  obtain ⟨d,hd,hflag⟩ := h.now w hw (hs.dated w (.inl hw))
  obtain ⟨state,hstate,rfl⟩ := Option.map_eq_some_iff.mp hd
  exact ⟨state,hstate,hflag⟩

/-! The sequence -/

/-- A write that has not missed too many changes lowers no sequence, and raises it by at most one. -/
theorem rises_written (h : Recorded Account.Counted s) (hs : s.Sound) (ht : t ∈ s.tasks)
    (hrest : t.rest = .call (.setState state ttlSeconds) k)
    (hfresh : s.keys.state.isNone ||
      (s.missed t.readAt ≤ t.mutator.raise && s.deletedAt.all (· ≤ t.readAt))) :
    ∀ stored ∈ s.document, stored.sequence ≤ (streamingOf state).sequence ∧
      (streamingOf state).sequence ≤ stored.sequence + 1 := by
  intro stored hstored
  obtain ⟨before,hbefore,-⟩ := Option.map_eq_some_iff.mp hstored
  rw [hbefore,Option.isNone_some,Bool.false_or,Bool.and_eq_true_iff,decide_eq_true_eq] at hfresh
  have hmissed : s.account.missed t.readAt ≤ t.mutator.raise := hfresh.1
  have hdeleted (v : Nat) (hv : v ∈ s.deletedAt) : v ≤ t.readAt := by
    have hall := hfresh.2
    rw [hv] at hall
    exact of_decide_eq_true hall
  have hraise : t.mutator.raise ≤ 1 := by
    cases t.mutator <;> simp [Mutator.raise]
  rcases h.writer hs ht hrest with ⟨old,hold,hnew⟩ | ⟨hnone,hcreate⟩
  · obtain ⟨stored',hstored',hlow,hhigh⟩ := hold hdeleted
    obtain rfl := Option.some_inj.mp (hstored'.symm.trans hstored)
    rw [hnew,effect_sequence]
    omega
  · have hchanged : 0 < s.account.missed t.readAt := hnone (by rw [show s.account.document = some stored from hstored]; rfl)
    have hneutral := raise_of_neutral hcreate.neutral
    omega

theorem counted_step (h : Recorded Account.Counted s) (hs : s.Sound) (hstep : s.step settings l = some s')
    (hfresh : s.sequenceFresh l) : Recorded Account.Counted s' := by
  refine h.step hs hstep (fun i answers seen hl t ht state ttlSeconds k hrest => ?_) ?_
  · subst hl
    have hrise := rises_written h hs (List.mem_of_getElem? ht) hrest (ok_of_writing hfresh ht hrest)
    exact ⟨fun v b hv hold => hold.write hv hrise,fun _ => ⟨_,rfl,le_rfl,by omega⟩⟩
  · refine ⟨fun v b hv hold => ?_,fun hstored => by cases hstored⟩
    cases b with
    | some d =>
      intro hdeleted
      have hread := hdeleted (s.version + 1) rfl
      exact absurd hread (by show ¬s.version + 1 ≤ v; have hv : v ≤ s.version := hv; omega)
    | none => exact fun hstored => by cases hstored

/-! What a step makes of the stored document -/

/-- A step that stores another document writes it. -/
theorem document_step (hstep : s.step settings l = some s') {old new : Streaming} (hold : s.document = some old)
    (hnew : s'.document = some new) :
    new = old ∨ ∃ i answers seen, l = .step i (.answer answers seen) ∧ ∃ t ∈ s.tasks[i]?, ∃ state ttlSeconds k,
      t.rest = .call (.setState state ttlSeconds) k ∧ new = streamingOf state := by
  rcases step_cases hstep with ⟨m,rfl,rfl⟩ | ⟨i,t,o,k,ht,hrest,⟨e,rfl,he,rfl⟩ | ⟨answers,seen,row,rfl,hrow,rfl⟩⟩
  · exact .inl (Option.some_inj.mp (hnew.symm.trans hold))
  · exact .inl (Option.some_inj.mp (hnew.symm.trans hold))
  · rw [perform_document] at hnew
    cases o with
    | setState state ttlSeconds =>
      cases hnew
      exact .inr ⟨i,answers,seen,rfl,t,ht,state,ttlSeconds,k,hrest,rfl⟩
    | deleteState => cases hnew
    | _ => exact .inl (Option.some_inj.mp (hnew.symm.trans hold))

theorem sequenceKept_step (h : Recorded Account.Counted s) (hs : s.Sound) (hstep : s.step settings l = some s')
    (hfresh : s.sequenceFresh l) : s.SequenceKept s' := by
  intro old new hold hnew
  rcases document_step hstep (document_eq hold) (document_eq hnew) with
    hsame | ⟨i,answers,seen,rfl,t,ht,state,ttlSeconds,k,hrest,hwritten⟩
  · exact Int.le_of_eq (congrArg Streaming.sequence hsame).symm
  · have hrise := rises_written h hs (List.mem_of_getElem? ht) hrest (ok_of_writing hfresh ht hrest)
    exact (hrise _ (document_eq hold)).1.trans (congrArg Streaming.sequence hwritten).symm.le

/-! The phase -/

theorem phased_step (h : Recorded Account.Phased s) (hs : s.Sound) (hstep : s.step settings l = some s') :
    Recorded Account.Phased s' := by
  refine h.step hs hstep (fun i answers seen hl t ht state ttlSeconds k hrest => ⟨fun v b hv hold => hold.write hv,?_⟩) ?_
  · intro stored hstored _
    cases hstored
    exact ⟨_,rfl,rfl⟩
  · exact ⟨fun v b hv hold stored hstored => (by cases hstored),fun stored hstored => (by cases hstored)⟩

theorem phaseKept_step (h : Recorded Account.Phased s) (hs : s.Sound) (hstep : s.step settings l = some s')
    (hfresh : s.phaseFresh l) : s.PhaseKept l s' := by
  intro old new hold hnew
  rcases document_step hstep (document_eq hold) (document_eq hnew) with
    hsame | ⟨i,answers,seen,rfl,t,ht,state,ttlSeconds,k,hrest,hwritten⟩
  · exact .inl (congrArg Streaming.phase hsame)
  · have hphase : new.phase = (streamingOf state).phase := congrArg Streaming.phase hwritten
    have hread (hother : t.mutator.setsPhase = false) : s.phaseAt ≤ t.readAt := by
      have hok := ok_of_writing hfresh ht hrest
      simpa [hold,hother] using hok
    rcases h.writer hs (List.mem_of_getElem? ht) hrest with ⟨d,hd,heffect⟩ | ⟨hnone,hcreate⟩
    · rcases effect_phase t.mutator d with ⟨hother,hkept⟩ | hupdate
      · obtain ⟨d',hd',hsame⟩ := hd _ (document_eq hold) (hread hother)
        cases hd'
        exact .inl ((hphase.trans (congrArg Streaming.phase heffect)).trans (hkept.trans hsame))
      · rw [← heffect,← hphase] at hupdate
        exact .inr ⟨i,_,rfl,t,ht,hupdate⟩
    · obtain ⟨d,hd,-⟩ := hnone _ (document_eq hold) (hread (setsPhase_of_neutral hcreate.neutral))
      cases hd

/-! The deletion -/

/-- After the deletion a task that has missed nothing finds the document missing and the row terminal. -/
theorem not_written_after_deletion (h : Recorded Account.Gone s) (hs : s.Sound) (ht : t ∈ s.tasks)
    (hrest : t.rest = .call (.setState state ttlSeconds) k)
    (hfresh : s.deletedAt.all fun v => v ≤ t.readAt &&
      (t.knowledge.base ≠ some none || t.knowledge.status = some s.row.status)) :
    s.deletedAt = none := by
  cases hdeleted : s.deletedAt with
  | none => rfl
  | some v =>
    rw [hdeleted,Option.all_some,Bool.and_eq_true_iff,decide_eq_true_eq] at hfresh
    obtain ⟨hread,hseen⟩ := hfresh
    rcases h.writer hs ht hrest with ⟨old,hold,-⟩ | ⟨-,hcreate⟩
    · cases hold v hdeleted hread
    · obtain ⟨status,hstatus,hlive⟩ := hcreate.live
      have hseen : t.knowledge.status = some s.row.status := by simpa [hcreate.missing] using hseen
      rw [hseen] at hstatus
      cases hstatus
      exact absurd (hlive.symm.trans (hs.gone (by rw [hdeleted]; rfl))) (by decide)

theorem gone_step (h : Recorded Account.Gone s) (hs : s.Sound) (hstep : s.step settings l = some s')
    (hfresh : s.deletionFresh l) : Recorded Account.Gone s' := by
  refine h.step hs hstep (fun i answers seen hl t ht state ttlSeconds k hrest => ⟨fun v b hv hold => hold,?_⟩) ?_
  · subst hl
    have hnone := not_written_after_deletion h hs (List.mem_of_getElem? ht) hrest (ok_of_writing hfresh ht hrest)
    intro w hw
    rw [show (s.account.write t.mutator t.readAt (streamingOf state)).deletedAt = none from hnone] at hw
    cases hw
  · refine ⟨fun v b hv hold w hw hle => ?_,fun w hw hle => rfl⟩
    cases hw
    have hle : s.version + 1 ≤ v := hle
    omega

theorem deletionKept_of_gone (h : Recorded Account.Gone s) (hs : s.Sound) : s.DeletionKept := by
  intro hdeleted
  obtain ⟨w,hw⟩ := Option.isSome_iff_exists.mp hdeleted
  exact Option.map_eq_none_iff.mp (h.now w hw (hs.dated w (.inr hw)))

/-! Whole runs -/

/-- The rule of a run: a property of what was read that each step keeps under its condition. -/
theorem recorded_of_fresh {J : Account → Nat → Option Streaming → Prop} {Ok : Store → Label → Prop} {keys : Keys}
    {row : SessionRow} {ls : List Label} (h0 : J (start keys row).account 0 (start keys row).document)
    (hstep : ∀ s l s', Recorded J s → s.Sound → s.step settings l = some s' → Ok s l → Recorded J s')
    (h : ∀ s l s', Fires (step settings) (start keys row) ls s l s' → Ok s l)
    (hf : Fires (step settings) (start keys row) ls s l s') : Recorded J s ∧ s.Sound ∧ Recorded J s' ∧ s'.Sound := by
  have hinv (a : Store) (ha : Visits (step settings) (start keys row) ls a) : Recorded J a ∧ a.Sound := by
    refine ha.induction (I := fun a => Recorded J a ∧ a.Sound) ⟨recorded_start keys row h0,sound_start keys row⟩
      fun a m b hab ha => ?_
    have hb := hab.choose_spec.2.2
    exact ⟨hstep a m b ha.1 ha.2 hb (h a m b hab),sound_step ha.2 hb⟩
  exact ⟨(hinv s hf.before).1,(hinv s hf.before).2,(hinv s' hf.after).1,(hinv s' hf.after).2⟩

/-- A run in which no key is created after the deletion has only writes that have read it. -/
theorem deletionFresh_of_kept (hstep : s.step settings l = some s') (hkept : s'.DeletionKept) : s.deletionFresh l := by
  rcases step_cases hstep with ⟨m,rfl,rfl⟩ | ⟨i,t,o,k,ht,hrest,⟨e,rfl,he,rfl⟩ | ⟨answers,seen,row,rfl,hrow,rfl⟩⟩
  · rfl
  · rfl
  · unfold deletionFresh writing
    dsimp only
    rw [ht,Option.all_some,hrest]
    cases o with
    | setState state ttlSeconds =>
      have hnone : s.deletedAt = none := by
        by_contra hdeleted
        cases hkept (Option.isSome_iff_ne_none.mpr hdeleted)
      simp [hnone]
    | _ => rfl

/-- What the interleavings of the mutators keep: an interrupt that is due, where whoever else writes
has read it; the sequence, where no write has missed more changes than it makes itself; the phase,
where all writes but those of `update_phase` have read it; and the deletion exactly where
whoever writes after it has read the key and the row since. -/
theorem state_intact (settings : Settings) (keys : Keys) (row : SessionRow) (ls : List Label) :
    ((∀ s l s', Fires (step settings) (start keys row) ls s l s' → s.interruptFresh l) →
      ∀ s l s', Fires (step settings) (start keys row) ls s l s' → s'.InterruptKept) ∧
    ((∀ s l s', Fires (step settings) (start keys row) ls s l s' → s.sequenceFresh l) →
      ∀ s l s', Fires (step settings) (start keys row) ls s l s' → s.SequenceKept s') ∧
    ((∀ s l s', Fires (step settings) (start keys row) ls s l s' → s.phaseFresh l) →
      ∀ s l s', Fires (step settings) (start keys row) ls s l s' → s.PhaseKept l s') ∧
    ((∀ s l s', Fires (step settings) (start keys row) ls s l s' → s'.DeletionKept) ↔
      ∀ s l s', Fires (step settings) (start keys row) ls s l s' → s.deletionFresh l) := by
  refine ⟨fun h s l s' hf => ?_,fun h s l s' hf => ?_,fun h s l s' hf => ?_,?_⟩
  · have hstart : (start keys row).account.Flagged 0 (start keys row).document := fun w hw => by cases hw
    obtain ⟨-,-,hrecorded,hs⟩ := recorded_of_fresh hstart (fun s l s' hr hs => flagged_step hr hs) h hf
    exact interruptKept_of_flagged hrecorded hs
  · have hstart : (start keys row).account.Counted 0 (start keys row).document := by
      cases hd : (start keys row).document with
      | none =>
        intro hstored
        rw [show (start keys row).account.document = none from hd] at hstored
        cases hstored
      | some d => exact fun _ => ⟨d,hd,le_rfl,by omega⟩
    obtain ⟨hrecorded,hs,-⟩ := recorded_of_fresh hstart (fun s l s' hr hs => counted_step hr hs) h hf
    exact sequenceKept_step hrecorded hs hf.choose_spec.2.2 (h s l s' hf)
  · have hstart : (start keys row).account.Phased 0 (start keys row).document := fun stored hstored _ =>
      ⟨stored,hstored,rfl⟩
    obtain ⟨hrecorded,hs,-⟩ := recorded_of_fresh hstart (fun s l s' hr hs hstep _ => phased_step hr hs hstep) h hf
    exact phaseKept_step hrecorded hs hf.choose_spec.2.2 (h s l s' hf)
  · constructor
    · exact fun h s l s' hf => deletionFresh_of_kept hf.choose_spec.2.2 (h s l s' hf)
    · intro h s l s' hf
      have hstart : (start keys row).account.Gone 0 (start keys row).document := fun w hw => by cases hw
      obtain ⟨-,-,hrecorded,hs⟩ := recorded_of_fresh hstart (fun s l s' hr hs => gone_step hr hs) h hf
      exact deletionKept_of_gone hrecorded hs

private def speaking : Store := start { state := some { phase := .speaking } } { status := .active }

private def ended : Store := start {} { status := .active }

private def steps (i n : Nat) (seen : Nat := 0) : List Label := List.replicate n (.step i (.answer {} seen))

/-- Two heartbeats, an `update_phase` and an interrupt whose reads and writes overlap, then the end of the
session with a reconciliation after it. -/
private def overlapping : List Label :=
  .spawn .recordHeartbeat :: .spawn (.updatePhase .listening) :: steps 0 3 ++ steps 1 1 ++ steps 0 2 ++ steps 1 1 ++
    .spawn .setInterrupt :: .spawn .recordHeartbeat :: steps 2 1 ++ steps 3 2 ++ steps 2 1 ++ steps 3 3 ++
      .spawn .endSession :: .spawn (.trackToolFailures 1) :: steps 4 6 ++ steps 5 1 ++ steps 5 1 18 ++ steps 5 1

theorem overlapping_tasks_intact :
    (∃ s, run (step {}) speaking overlapping = some s ∧ s.changes = [2,3] ∧ s.deletedAt = some 5) ∧
      ∀ s l s', Fires (step {}) speaking overlapping s l s' →
        s'.InterruptKept ∧ s.SequenceKept s' ∧ s.PhaseKept l s' ∧ s'.DeletionKept := by
  have hinterrupt : checkRun (step {}) interruptFresh speaking overlapping = true := rfl
  have hsequence : checkRun (step {}) sequenceFresh speaking overlapping = true := rfl
  have hphase : checkRun (step {}) phaseFresh speaking overlapping = true := rfl
  have hdeletion : checkRun (step {}) deletionFresh speaking overlapping = true := rfl
  obtain ⟨hi,hs,hp,hd⟩ := state_intact {} { state := some { phase := .speaking } } { status := .active } overlapping
  refine ⟨⟨_,rfl,rfl,rfl⟩,fun s l s' hf => ⟨?_,?_,?_,?_⟩⟩
  · exact hi (fun _ _ _ hf => ok_of_checkRun hinterrupt hf) s l s' hf
  · exact hs (fun _ _ _ hf => ok_of_checkRun hsequence hf) s l s' hf
  · exact hp (fun _ _ _ hf => ok_of_checkRun hphase hf) s l s' hf
  · exact hd.mpr (fun _ _ _ hf => ok_of_checkRun hdeletion hf) s l s' hf

/-- Each part fails when a heartbeat writes the document it read before another
task's write; and a reconciliation that has not seen the end of the session creates
the document again although it has read the key last. -/
theorem stale_heartbeat_breaks_state :
    (∃ ls s l s', Fires (step {}) speaking ls s l s' ∧ ¬ InterruptKept s') ∧
    (∃ ls s l s', Fires (step {}) speaking ls s l s' ∧ ¬ SequenceKept s s') ∧
    (∃ ls s l s', Fires (step {}) speaking ls s l s' ∧ ¬ PhaseKept s l s') ∧
    (∃ ls s l s', Fires (step {}) speaking ls s l s' ∧ ¬ DeletionKept s') ∧
    (∃ ls s l s', Fires (step {}) ended ls s l s' ∧ ¬ DeletionKept s' ∧
      ∀ i choice, l = .step i choice → ∀ t ∈ s.tasks[i]?, t.readAt = s.version) := by
  refine ⟨⟨_,_,.step 0 (.answer {} 0),_,⟨.spawn .recordHeartbeat :: steps 0 3 ++
      .spawn .setInterrupt :: steps 1 2 ++ steps 0 1,List.prefix_rfl,rfl,rfl⟩,?_⟩,
    ⟨_,_,.step 0 (.answer {} 0),_,⟨.spawn .recordHeartbeat :: steps 0 3 ++
      .spawn (.updatePhase .listening) :: steps 1 2 ++ steps 0 1,List.prefix_rfl,rfl,rfl⟩,?_⟩,
    ⟨_,_,.step 0 (.answer {} 0),_,⟨.spawn .recordHeartbeat :: steps 0 3 ++
      .spawn (.updatePhase .listening) :: steps 1 2 ++ steps 0 1,List.prefix_rfl,rfl,rfl⟩,?_⟩,
    ⟨_,_,.step 0 (.answer {} 0),_,⟨.spawn .recordHeartbeat :: steps 0 3 ++
      .spawn .endSession :: steps 1 6 ++ steps 0 1,List.prefix_rfl,rfl,rfl⟩,?_⟩,
    ⟨_,_,.step 1 (.answer {} 0),_,⟨.spawn .endSession :: steps 0 6 ++
      .spawn (.trackToolFailures 1) :: steps 1 3,List.prefix_rfl,rfl,rfl⟩,?_,?_⟩⟩
  · intro h
    obtain ⟨state,hstate,hi⟩ := h rfl
    cases hstate
    cases hi
  · intro h
    exact absurd (h _ _ rfl rfl) (by decide)
  · intro h
    rcases h _ _ rfl rfl with hsame | ⟨i,choice,hl,t,ht,hm⟩
    · cases hsame
    · cases hl
      cases ht
      cases hm
  · intro h
    cases h rfl
  · intro h
    cases h rfl
  · rintro i choice hl t ht
    cases hl
    cases ht
    rfl

end Store
end VoxForge.Sessions
