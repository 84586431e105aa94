import VoxForge.AgentConfig.Service
import VoxForge.Foundation.Interference

/-! Any number of requests at once: the number of a version is read before the old versions are
deactivated, so a transaction that has been overtaken loses at the unique constraint. -/
namespace VoxForge.AgentConfig
open Foundation Core Prog

/-- All of a version but its flag. -/
def AgentConfigVersion.content (row : AgentConfigVersion) : AgentConfigVersion := { row with isActive := false }

theorem key_of_content {row kept : AgentConfigVersion} (h : kept.content = row.content) :
    kept.orgId = row.orgId ∧ kept.version = row.version :=
  ⟨congrArg (fun row => row.orgId) h,congrArg (fun row => row.version) h⟩

/-- Versions are numbered from 1 without a gap, and one at most is active. -/
structure Consistent (orgId : OrgId) (table : VersionTable) : Prop where
  numbered : (versionsOf orgId table).map (·.version) = List.range' 1 (versionsOf orgId table).length
  active : ((versionsOf orgId table).filter (·.isActive)).length ≤ 1

section table
variable {orgId other : OrgId} {table : VersionTable} {row : AgentConfigVersion} {version : Nat}

theorem Consistent.mem_iff (h : Consistent orgId table) :
    version ∈ (versionsOf orgId table).map (·.version) ↔ 1 ≤ version ∧ version ≤ (versionsOf orgId table).length := by
  rw [h.numbered,List.mem_range'_1]
  omega

theorem max_range' (n : Nat) : (List.range' 1 n).max?.getD 0 = n := by
  cases n with
  | zero => rfl
  | succ n =>
    have hmax : (List.range' 1 (n + 1)).max? = some (n + 1) := by
      rw [List.max?_eq_some_iff]
      refine ⟨List.mem_range'_1.mpr (by omega),fun b hb => ?_⟩
      have := List.mem_range'_1.mp hb
      omega
    rw [hmax]
    rfl

theorem versionsOf_insert : versionsOf orgId (ConfigWrite.apply table (.insert row)) =
    versionsOf orgId table ++ if row.orgId = orgId then [row] else [] := by
  unfold versionsOf ConfigWrite.apply
  rw [List.filter_append]
  split <;> simp [*]

theorem version?_eq_some (h : version? orgId version table = some row) :
    row ∈ table ∧ row.orgId = orgId ∧ row.version = version := by
  have hkey := List.find?_some h
  simp only [Bool.and_eq_true,decide_eq_true_eq] at hkey
  exact ⟨List.mem_of_find?_eq_some h,hkey⟩

/-- A version number names one row. -/
theorem Consistent.version? (h : Consistent orgId table) (hrow : row ∈ table) (horg : row.orgId = orgId) :
    version? orgId row.version table = some row := by
  have hnodup : ((versionsOf orgId table).map (·.version)).Nodup := by
    rw [h.numbered]
    exact List.nodup_range'
  have hmem {other : AgentConfigVersion} (hother : other ∈ table) (horg : other.orgId = orgId) :
      other ∈ versionsOf orgId table := List.mem_filter.mpr ⟨hother,by simpa using horg⟩
  cases hfound : AgentConfig.version? orgId row.version table with
  | none =>
    have hnone := List.find?_eq_none.mp hfound row hrow
    simp [horg] at hnone
  | some found =>
    obtain ⟨hin,hfoundOrg,hversion⟩ := version?_eq_some hfound
    rw [List.inj_on_of_nodup_map hnodup (hmem hin hfoundOrg) (hmem hrow horg) hversion]

/-- Deactivation of some versions, as the rows of their organisation see it. -/
def clear (versions : List Nat) (row : AgentConfigVersion) : AgentConfigVersion :=
  if row.version ∈ versions then { row with isActive := false } else row

theorem clear_content (versions : List Nat) : (clear versions row).content = row.content := by
  unfold clear
  split <;> rfl

theorem versionsOf_deactivate (versions : List Nat) :
    versionsOf orgId (ConfigWrite.apply table (.deactivate other versions)) =
      if other = orgId then (versionsOf orgId table).map (clear versions) else versionsOf orgId table := by
  have hsame (row : AgentConfigVersion) :
      (if row.orgId = other ∧ row.version ∈ versions then { row with isActive := false } else row).orgId =
        row.orgId := by split <;> rfl
  unfold versionsOf ConfigWrite.apply
  rw [List.filter_map]
  have hfilter : List.filter ((fun row : AgentConfigVersion => decide (row.orgId = orgId)) ∘
      fun row => if row.orgId = other ∧ row.version ∈ versions then { row with isActive := false } else row) table =
        table.filter fun row => decide (row.orgId = orgId) := by
    apply List.filter_congr
    intro row _
    simp [hsame]
  rw [hfilter]
  split
  · next heq =>
    apply List.map_congr_left
    intro row hrow
    have horg : row.orgId = other := by simpa [heq] using (List.mem_filter.mp hrow).2
    simp [clear,horg]
  · next hne =>
    apply (List.map_congr_left fun row hrow => ?_).trans (List.map_id _)
    have horg : row.orgId = orgId := by simpa using (List.mem_filter.mp hrow).2
    rw [if_neg fun h => hne (h.1.symm.trans horg)]
    rfl

/-- Writes keep every row that is there, but for its flag. -/
theorem content_kept (writes : List ConfigWrite) (h : row ∈ table) :
    ∃ kept ∈ writes.foldl ConfigWrite.apply table, kept.content = row.content := by
  induction writes generalizing table row with
  | nil => exact ⟨row,h,rfl⟩
  | cons w writes ih =>
    cases w with
    | insert new => exact ih (List.mem_append_left _ h)
    | deactivate orgId versions =>
      have hmem := List.mem_map_of_mem (f := fun row : AgentConfigVersion =>
        if row.orgId = orgId ∧ row.version ∈ versions then { row with isActive := false } else row) h
      obtain ⟨kept,hkept,hcontent⟩ := ih hmem
      refine ⟨kept,hkept,hcontent.trans ?_⟩
      split <;> rfl

end table

/-- How far a request has come. -/
structure Draft where
  /-- The version that a rollback copies. -/
  source : Option AgentConfigVersion := none
  number : Option Nat := none
  cleared : Bool := false
  inserted : Option VersionDraft := none

/-- The new version of a rollback is active, with the configs of the old one. -/
def Restores (request : ConfigRequest) (source : Option AgentConfigVersion) (draft : VersionDraft) : Prop :=
  match request with
  | .rollback _ _ targetVersion _ => draft.isActive = true ∧ ∃ row, source = some row ∧
      row.orgId = request.orgId ∧ row.version = targetVersion ∧ draft.promptConfig = row.promptConfig ∧
      draft.orchestratorConfig = row.orchestratorConfig ∧ draft.evalThresholds = row.evalThresholds
  | _ => True

/-- A number is read, then what is active is deactivated if need be, then the version inserted. -/
def drafting (request : ConfigRequest) : Discipline ConfigOp ConfigReply ConfigErr Draft where
  allowed d
    | .selectVersion orgId _ => orgId = request.orgId ∧ d.cleared = false ∧ d.inserted = none
    | .selectMaxVersion orgId => orgId = request.orgId ∧ d.cleared = false ∧ d.inserted = none
    | .deactivateAll orgId => orgId = request.orgId ∧ d.number.isSome ∧ d.cleared = false ∧ d.inserted = none
    | .insertVersion draft => draft.orgId = request.orgId ∧ d.number = some draft.version ∧
        draft.isActive = d.cleared ∧ d.inserted = none ∧ Restores request d.source draft
    | _ => True
  possible
    | .selectVersion orgId version,.ok (reply : Option AgentConfigVersion) =>
      ∀ row ∈ reply, row.orgId = orgId ∧ row.version = version
    | _,_ => True
  after d
    | .selectVersion _ _,.ok (reply : Option AgentConfigVersion) => { d with source := reply.or d.source }
    | .selectMaxVersion _,.ok (current : Option Nat) => { d with number := some (current.getD 0 + 1) }
    | .deactivateAll _,.ok _ => { d with cleared := true }
    | .insertVersion draft,.ok _ => { d with inserted := some draft }
    | _,_ => d

section discipline
variable {request : ConfigRequest} {d : Draft}

theorem wp_createVersion {draft : VersionDraft} (horg : draft.orgId = request.orgId)
    (hnumber : d.number = some draft.version) (hcleared : d.cleared = false) (hinserted : d.inserted = none)
    (hrestores : Restores request d.source draft) :
    wp (drafting request) d (AgentConfigRepository.createVersion draft)
      (returns fun d' _ => d'.inserted.isSome) := by
  unfold AgentConfigRepository.createVersion
  extract_lets insert
  have hinsert {c : Draft} (hc : c.number = some draft.version ∧ c.cleared = draft.isActive ∧ c.inserted = none ∧
      c.source = d.source) : wp (drafting request) c (insert ()) (returns fun d' _ => d'.inserted.isSome) := by
    refine wp_perform_then ⟨horg,hc.1,hc.2.1.symm,hc.2.2.1,hc.2.2.2 ▸ hrestores⟩ (fun e => trivial) fun id => ?_
    refine wp_perform_then trivial (fun e => trivial) fun row => ?_
    cases row with
    | none => trivial
    | some row => rfl
  cases hactive : draft.isActive with
  | true =>
    refine ⟨⟨horg,by rw [hnumber]; rfl,hcleared,hinserted⟩,fun r _ => ?_⟩
    cases r with
    | ok _ => exact hinsert ⟨hnumber,hactive.symm,hinserted,rfl⟩
    | error e => trivial
  | false => exact hinsert ⟨hnumber,hcleared.trans hactive.symm,hinserted,rfl⟩

/-- The number that is read is the one that the version gets. -/
theorem wp_numbered {draft : Nat → VersionDraft} (hcleared : d.cleared = false) (hinserted : d.inserted = none)
    (horg : ∀ n, (draft n).orgId = request.orgId) (hversion : ∀ n, (draft n).version = n)
    (hrestores : ∀ n, Restores request d.source (draft n)) :
    wp (drafting request) d (do
      let version ← AgentConfigRepository.nextVersionNumber request.orgId
      AgentConfigRepository.createVersion (draft version)) (returns fun d' _ => d'.inserted.isSome) := by
  refine ⟨⟨rfl,hcleared,hinserted⟩,fun r _ => ?_⟩
  cases r with
  | ok current =>
    exact wp_createVersion (horg _) (congrArg some (hversion _).symm) hcleared hinserted (hrestores _)
  | error e => trivial

theorem wp_program (request : ConfigRequest) :
    wp (drafting request) {} request.program (returns fun d _ => d.inserted.isSome) := by
  cases request with
  | applyPreset orgId userId presetSlug changeNote activate =>
    apply wp_discard
    have hpresets : wp (drafting (.applyPreset orgId userId presetSlug changeNote activate)) {} listPolicyPresets
        (returns fun d _ => d = {}) := by
      refine ⟨trivial,fun r _ => ?_⟩
      cases r with
      | ok templates => rfl
      | error e => trivial
    apply wp_then hpresets
    rintro _ presets rfl
    cases getPolicyPreset presets presetSlug with
    | none => trivial
    | some preset => exact wp_numbered rfl rfl (fun _ => rfl) (fun _ => rfl) fun _ => trivial
  | createVersion orgId userId label promptConfig orchestratorConfig evalThresholds changeNote activate =>
    apply wp_discard
    refine ⟨trivial,fun r _ => ?_⟩
    match r with
    | .error e => trivial
    | .ok none => exact wp_numbered rfl rfl (fun _ => rfl) (fun _ => rfl) fun _ => trivial
    | .ok (some template) => exact wp_numbered rfl rfl (fun _ => rfl) (fun _ => rfl) fun _ => trivial
  | rollback orgId userId targetVersion changeNote =>
    apply wp_discard
    refine ⟨⟨rfl,rfl,rfl⟩,fun r hr => ?_⟩
    match r,hr with
    | .error e,_ => trivial
    | .ok none,_ => trivial
    | .ok (some row),hr =>
      obtain ⟨horg,hversion⟩ := hr row rfl
      exact wp_numbered rfl rfl (fun _ => rfl) (fun _ => rfl) fun _ => ⟨rfl,row,rfl,horg,hversion,rfl,rfl,rfl⟩

end discipline

/-- What a request has written. -/
def drafted (orgId : OrgId) (d : Draft) (versions : List Nat) (id : Nat) (createdAt : Time) : List ConfigWrite :=
  (if d.cleared then [.deactivate orgId versions] else []) ++
    (d.inserted.map fun draft => .insert { draft with id, createdAt }).toList

/-- How a request stands to what is committed: its number may have been overtaken, but a
version that it has inserted is the next one. -/
structure Sees (request : ConfigRequest) (table : VersionTable) (pending : List ConfigWrite) (d : Draft) : Prop where
  number : ∀ n ∈ d.number, 1 ≤ n ∧ n ≤ (versionsOf request.orgId table).length + 1
  pending : ∃ versions id createdAt, pending = drafted request.orgId d versions id createdAt ∧
    ∀ n ∈ d.number, n = (versionsOf request.orgId table).length + 1 → d.cleared = true →
      ∀ row ∈ versionsOf request.orgId table, row.isActive = true → row.version ∈ versions
  inserted : ∀ draft ∈ d.inserted, draft.orgId = request.orgId ∧ d.number = some draft.version ∧
    draft.version = (versionsOf request.orgId table).length + 1 ∧ draft.isActive = d.cleared ∧
    Restores request d.source draft
  source : ∀ row ∈ d.source, ∃ kept ∈ table, kept.content = row.content

def Good (table : VersionTable) : Prop := ∀ orgId, Consistent orgId table

section statement
variable {request : ConfigRequest} {table : VersionTable} {pending : List ConfigWrite} {d : Draft} {o : ConfigOp}
  {env : Surroundings}

theorem Sees.pending_nil (h : Sees request table pending d) (hcleared : d.cleared = false)
    (hinserted : d.inserted = none) : pending = [] := by
  obtain ⟨versions,id,createdAt,hpending,-⟩ := h.pending
  simpa [drafted,hcleared,hinserted] using hpending

/-- A version that is inserted without a conflict is the next one. -/
theorem Sees.next (hgood : Good table) (h : Sees request table pending d) {draft : VersionDraft}
    (horg : draft.orgId = request.orgId) (hnumber : d.number = some draft.version)
    (hfree : ((pending.foldl ConfigWrite.apply table).any fun row =>
      row.orgId = draft.orgId && row.version = draft.version) = false) :
    draft.version = (versionsOf request.orgId table).length + 1 := by
  obtain ⟨hpos,hle⟩ := h.number draft.version hnumber
  by_contra hne
  have hold : draft.version ∈ (versionsOf request.orgId table).map (·.version) :=
    (hgood request.orgId).mem_iff.mpr ⟨hpos,by omega⟩
  obtain ⟨row,hrow,hversion⟩ := List.mem_map.mp hold
  obtain ⟨hin,hrowOrg⟩ := List.mem_filter.mp hrow
  obtain ⟨kept,hkept,hcontent⟩ := content_kept pending hin
  obtain ⟨hkeptOrg,hkeptVersion⟩ := key_of_content hcontent
  have hconflict := List.any_eq_false.mp hfree kept hkept
  simp only [decide_eq_true_eq] at hrowOrg
  simp [hkeptOrg,hkeptVersion,hrowOrg,hversion,horg] at hconflict

theorem none_inserted {P : VersionDraft → Prop} (h : d.inserted = none) : ∀ draft ∈ d.inserted, P draft := by
  intro draft hdraft
  rw [h] at hdraft
  cases hdraft

theorem Sees.statement (hgood : Good table) (h : Sees request table pending d)
    (hallowed : (drafting request).allowed d o) :
    Sees request table (pending ++ (perform env (pending.foldl ConfigWrite.apply table) () o).2.1)
      ((drafting request).after d o (perform env (pending.foldl ConfigWrite.apply table) () o).1) := by
  cases o with
  | selectTemplates => simpa [perform,drafting] using h
  | selectDefaultTemplate => simpa [perform,drafting] using h
  | refresh id => simpa [perform,drafting] using h
  | selectVersion orgId version =>
    obtain ⟨-,hcleared,hinserted⟩ := hallowed
    obtain rfl := h.pending_nil hcleared hinserted
    refine ⟨h.number,h.pending,?_,?_⟩
    · exact none_inserted hinserted
    · intro row hrow
      rcases Option.or_eq_some_iff.mp (show (version? orgId version table).or d.source = some row from hrow) with
        hfound | ⟨-,hold⟩
      · exact ⟨row,(version?_eq_some hfound).1,rfl⟩
      · exact h.source row hold
  | selectMaxVersion orgId =>
    obtain ⟨rfl,hcleared,hinserted⟩ := hallowed
    obtain rfl := h.pending_nil hcleared hinserted
    have hmax : ((versionsOf request.orgId table).map (·.version)).max?.getD 0 =
        (versionsOf request.orgId table).length := by
      rw [(hgood request.orgId).numbered]
      exact max_range' _
    refine ⟨?_,⟨[],0,0,?_,?_⟩,?_,h.source⟩
    · rintro n ⟨⟩
      exact ⟨Nat.le_add_left 1 _,Nat.le_of_eq (congrArg (· + 1) hmax)⟩
    · simp [drafted,drafting,perform,hcleared,hinserted]
    · intro n _ _ hset
      have hset : d.cleared = true := hset
      rw [hcleared] at hset
      cases hset
    · exact none_inserted hinserted
  | deactivateAll orgId =>
    obtain ⟨rfl,-,hcleared,hinserted⟩ := hallowed
    obtain rfl := h.pending_nil hcleared hinserted
    refine ⟨h.number,⟨(versionsOf request.orgId table).map (·.version),0,0,?_,?_⟩,?_,h.source⟩
    · simp [drafted,drafting,perform,hinserted]
    · intro n _ _ _ row hrow _
      exact List.mem_map_of_mem hrow
    · exact none_inserted hinserted
  | insertVersion draft =>
    obtain ⟨horg,hnumber,hactive,hinserted,hrestores⟩ := hallowed
    cases hconflict : (pending.foldl ConfigWrite.apply table).any fun row =>
        row.orgId = draft.orgId && row.version = draft.version with
    | true => simpa [perform,hconflict,drafting] using h
    | false =>
      obtain ⟨versions,id,createdAt,hpending,hcovers⟩ := h.pending
      have hperform : perform env (pending.foldl ConfigWrite.apply table) () (.insertVersion draft) =
          (.ok env.id,[.insert { draft with id := env.id, createdAt := env.now }],()) := by
        simp [perform,hconflict]
      rw [hperform]
      refine ⟨h.number,⟨versions,env.id,env.now,?_,hcovers⟩,?_,h.source⟩
      · simp [drafted,drafting,hpending,hinserted]
      · rintro draft' ⟨⟩
        exact ⟨horg,hnumber,h.next hgood horg hnumber hconflict,hactive,hrestores⟩

end statement

section commit
variable {request other : ConfigRequest} {table : VersionTable} {pending : List ConfigWrite} {d : Draft}
  {draft : VersionDraft}

/-- The rows of an organisation after the commit of a request that has inserted its version. -/
theorem Sees.committed (h : Sees request table pending d) (hinserted : d.inserted = some draft) :
    ∃ versions id createdAt, pending = drafted request.orgId d versions id createdAt ∧
      (∀ orgId, versionsOf orgId (pending.foldl ConfigWrite.apply table) =
        if orgId = request.orgId then
          (if d.cleared then (versionsOf orgId table).map (clear versions) else versionsOf orgId table) ++
            [{ draft with id, createdAt }]
        else versionsOf orgId table) ∧
      (d.cleared = true → ∀ row ∈ versionsOf request.orgId table, row.isActive = true → row.version ∈ versions) := by
  obtain ⟨versions,id,createdAt,rfl,hcovers⟩ := h.pending
  obtain ⟨horg,hnumber,hnext,-,-⟩ := h.inserted draft hinserted
  refine ⟨versions,id,createdAt,rfl,fun orgId => ?_,hcovers draft.version hnumber hnext⟩
  have hinsert (rows : VersionTable) : versionsOf orgId (ConfigWrite.apply rows
      (.insert { draft with id, createdAt })) = versionsOf orgId rows ++
        if orgId = request.orgId then [{ draft with id, createdAt }] else [] := by
    rw [versionsOf_insert]
    simp only [horg,eq_comm]
  cases hcleared : d.cleared with
  | false =>
    simp only [drafted,hcleared,hinserted,Bool.false_eq_true,if_false,List.nil_append,Option.map_some,
      Option.toList_some,List.foldl_cons,List.foldl_nil,hinsert]
    split <;> simp
  | true =>
    simp only [drafted,hcleared,hinserted,if_true,Option.map_some,Option.toList_some,List.singleton_append,
      List.foldl_cons,List.foldl_nil,hinsert,versionsOf_deactivate]
    by_cases hown : orgId = request.orgId
    · simp [hown]
    · simp [hown,Ne.symm hown]

theorem Sees.good (hgood : Good table) (h : Sees request table pending d) (hinserted : d.inserted = some draft) :
    Good (pending.foldl ConfigWrite.apply table) := by
  intro orgId
  obtain ⟨versions,id,createdAt,-,hrows,hcovers⟩ := h.committed hinserted
  obtain ⟨-,-,hnext,hactive,-⟩ := h.inserted draft hinserted
  obtain ⟨hnumbered,hone⟩ := hgood orgId
  by_cases hown : orgId = request.orgId
  · subst hown
    have hrow := hrows request.orgId
    rw [if_pos rfl] at hrow
    constructor
    · have hversions : ((if d.cleared then (versionsOf request.orgId table).map (clear versions)
          else versionsOf request.orgId table)).map (·.version) = (versionsOf request.orgId table).map (·.version) := by
        split
        · rw [List.map_map]
          apply List.map_congr_left
          intro row _
          exact (key_of_content (clear_content versions)).2
        · rfl
      have hlength : (versionsOf request.orgId (pending.foldl ConfigWrite.apply table)).length =
          (versionsOf request.orgId table).length + 1 := by
        rw [hrow,List.length_append,← List.length_map (f := fun row : AgentConfigVersion => row.version),hversions,
          List.length_map,List.length_singleton]
      rw [hlength,hrow,List.map_append,hversions,hnumbered,List.map_singleton,hnext,List.range'_1_concat,Nat.add_comm 1]
    · rw [hrow,List.filter_append,List.length_append]
      cases hcleared : d.cleared with
      | false =>
        have hinactive : draft.isActive = false := hactive.trans hcleared
        simpa [hinactive] using hone
      | true =>
        have hnone : ((versionsOf request.orgId table).map (clear versions)).filter (·.isActive) = [] := by
          rw [List.filter_eq_nil_iff]
          intro cleared hmem
          obtain ⟨row,hrow,rfl⟩ := List.mem_map.mp hmem
          unfold clear
          split
          · simp
          · next hout => exact fun hon => hout (hcovers hcleared row hrow hon)
        rw [if_pos rfl,hnone,List.length_nil,Nat.zero_add]
        exact List.length_filter_le _ _
  · have hrow := hrows orgId
    rw [if_neg hown] at hrow
    exact ⟨by rw [hrow]; exact hnumbered,by rw [hrow]; exact hone⟩

theorem holds_inserted {t : Transaction ConfigOp ConfigReply ConfigErr ConfigWrite ConfigRequest}
    (h : Sees t.kind table t.pending d) (hinserted : d.inserted = some draft) :
    t.Holds database (t.kind.orgId,(versionsOf t.kind.orgId table).length + 1) := by
  obtain ⟨versions,id,createdAt,hpending,-⟩ := h.pending
  obtain ⟨horg,-,hnext,-,-⟩ := h.inserted draft hinserted
  refine ⟨.insert { draft with id, createdAt },?_,?_⟩
  · rw [hpending]
    simp [drafted,hinserted]
  · rw [← hnext,← horg]
    rfl

/-- What a request knows survives the commit of another, with which it shares no lock. -/
theorem Sees.overtaken {t u : Transaction ConfigOp ConfigReply ConfigErr ConfigWrite ConfigRequest} {e : Draft}
    (h : Sees t.kind table t.pending d) (hinserted : d.inserted = some draft) (hu : Sees u.kind table u.pending e)
    (hapart : u.Apart database t) : Sees u.kind (t.pending.foldl ConfigWrite.apply table) u.pending e := by
  have hsource : ∀ row ∈ e.source, ∃ kept ∈ t.pending.foldl ConfigWrite.apply table, kept.content = row.content := by
    intro row hrow
    obtain ⟨kept,hkept,hcontent⟩ := hu.source row hrow
    obtain ⟨later,hlater,hsame⟩ := content_kept t.pending hkept
    exact ⟨later,hlater,hsame.trans hcontent⟩
  obtain ⟨versions,id,createdAt,-,hrows,-⟩ := h.committed hinserted
  have hrow := hrows u.kind.orgId
  by_cases hown : u.kind.orgId = t.kind.orgId
  · rw [if_pos hown] at hrow
    have hlength : (versionsOf u.kind.orgId (t.pending.foldl ConfigWrite.apply table)).length =
        (versionsOf u.kind.orgId table).length + 1 := by
      rw [hrow,List.length_append,List.length_singleton]
      split <;> simp
    -- Whoever has inserted a version would hold the same entry.
    have hnone : e.inserted = none := by
      cases hother : e.inserted with
      | none => rfl
      | some draft' =>
        have hlock := holds_inserted h hinserted
        rw [← hown] at hlock
        exact (hapart _ (holds_inserted hu hother) hlock).elim
    obtain ⟨versions',id',createdAt',hpending,-⟩ := hu.pending
    refine ⟨fun n hn => ?_,⟨versions',id',createdAt',hpending,fun n hn heq => ?_⟩,fun draft' hdraft => ?_,hsource⟩
    · have := hu.number n hn
      omega
    · have := hu.number n hn
      omega
    · rw [hnone] at hdraft
      cases hdraft
  · rw [if_neg hown] at hrow
    refine ⟨?_,?_,?_,hsource⟩
    · rw [hrow]
      exact hu.number
    · rw [hrow]
      exact hu.pending
    · rw [hrow]
      exact hu.inserted

/-- The commit of a rollback adds an active version with the configs of the old one. -/
def RollsBack (request : ConfigRequest) (before after : VersionTable) : Prop :=
  match request with
  | .rollback orgId _ targetVersion _ => ∃ old new, version? orgId targetVersion before = some old ∧
      version? orgId ((versionsOf orgId before).length + 1) after = some new ∧ new.isActive = true ∧
      new.promptConfig = old.promptConfig ∧ new.orchestratorConfig = old.orchestratorConfig ∧
      new.evalThresholds = old.evalThresholds
  | _ => True

theorem Sees.rollsBack (hgood : Good table) (h : Sees request table pending d) (hinserted : d.inserted = some draft) :
    RollsBack request table (pending.foldl ConfigWrite.apply table) := by
  obtain ⟨versions,id,createdAt,-,hrows,-⟩ := h.committed hinserted
  obtain ⟨horg,-,hnext,-,hrestores⟩ := h.inserted draft hinserted
  cases request with
  | applyPreset _ _ _ _ _ => trivial
  | createVersion _ _ _ _ _ _ _ _ => trivial
  | rollback orgId userId targetVersion changeNote =>
    obtain ⟨hactive,row,hsource,hrowOrg,rfl,hprompt,horchestrator,hthresholds⟩ := hrestores
    obtain ⟨old,hold,hcontent⟩ := h.source row hsource
    obtain ⟨holdOrg,holdVersion⟩ := key_of_content hcontent
    have hnew : ({ draft with id, createdAt } : AgentConfigVersion) ∈ pending.foldl ConfigWrite.apply table := by
      have hrow := hrows orgId
      rw [if_pos (show orgId = ConfigRequest.orgId (.rollback orgId userId row.version changeNote) from rfl)] at hrow
      refine (List.mem_filter.mp (show _ ∈ versionsOf orgId _ from ?_)).1
      rw [hrow]
      exact List.mem_append_right _ (List.mem_singleton_self _)
    refine ⟨old,{ draft with id, createdAt },?_,?_,hactive,?_,?_,?_⟩
    · rw [← holdVersion]
      exact (hgood orgId).version? hold (holdOrg.trans hrowOrg)
    · have hfound := (h.good hgood hinserted orgId).version? hnew horg
      rw [← hfound]
      exact congrArg (fun n => version? orgId n _) hnext.symm
    · exact hprompt.trans (congrArg (fun row : AgentConfigVersion => row.promptConfig) hcontent).symm
    · exact horchestrator.trans (congrArg (fun row : AgentConfigVersion => row.orchestratorConfig) hcontent).symm
    · exact hthresholds.trans (congrArg (fun row : AgentConfigVersion => row.evalThresholds) hcontent).symm

end commit

/-- A version keeps all but its flag. -/
def Unchanged (before after : VersionTable) : Prop :=
  ∀ orgId version row, version? orgId version before = some row →
    ∃ kept, version? orgId version after = some kept ∧ kept.content = row.content

theorem unchanged_of_good {table : VersionTable} {pending : List ConfigWrite}
    (hgood : Good (pending.foldl ConfigWrite.apply table)) : Unchanged table (pending.foldl ConfigWrite.apply table) := by
  intro orgId version row hrow
  obtain ⟨hmem,horg,rfl⟩ := version?_eq_some hrow
  obtain ⟨kept,hkept,hcontent⟩ := content_kept pending hmem
  obtain ⟨hkeptOrg,hversion⟩ := key_of_content hcontent
  rw [← hversion]
  exact ⟨kept,(hgood orgId).version? hkept (hkeptOrg.trans horg),hcontent⟩

/-- Only a request that still has the next number can commit. -/
def versioning : Interference database ConfigRequest.program where
  Good := Good
  Knows table t := ∃ d, wp (drafting t.kind) d t.rest (returns fun d _ => d.inserted.isSome) ∧
    Sees t.kind table t.pending d
  Move t before after := Unchanged before after ∧ RollsBack t.kind before after
  begins := fun kind _ => ⟨{},wp_program kind,by simp,⟨[],0,0,rfl,by simp⟩,by simp,by simp⟩
  statement := fun {c t o k choice shared} hgood hknows hrest => by
    obtain ⟨d,hwp,hsees⟩ := hknows
    rw [hrest] at hwp
    refine ⟨_,hwp.2 _ ?_,hsees.statement hgood hwp.1⟩
    cases o with
    | selectVersion orgId version => exact fun row hrow => (version?_eq_some hrow).2
    | _ => trivial
  fault := fun {c t o k e} _ hknows hrest _ => by
    obtain ⟨d,hwp,hsees⟩ := hknows
    rw [hrest] at hwp
    have hnext := hwp.2 (.error e) (by cases o <;> trivial)
    have hsame : (drafting t.kind).after d o (.error e) = d := by cases o <;> rfl
    rw [hsame] at hnext
    exact ⟨d,hnext,hsees⟩
  commits := fun {c t} hgood hknows hrest => by
    obtain ⟨d,hwp,hsees⟩ := hknows
    rw [hrest] at hwp
    obtain ⟨draft,hinserted⟩ := Option.isSome_iff_exists.mp hwp
    have hgood' := hsees.good hgood hinserted
    exact ⟨hgood',unchanged_of_good hgood',hsees.rollsBack hgood hinserted⟩
  overtaken := fun {c t u} _ hknows hrest hu hapart => by
    obtain ⟨d,hwp,hsees⟩ := hknows
    obtain ⟨e,hwp',hsees'⟩ := hu
    rw [hrest] at hwp
    obtain ⟨draft,hinserted⟩ := Option.isSome_iff_exists.mp hwp
    exact ⟨e,hwp',hsees.overtaken hinserted hsees' hapart⟩

abbrev ConfigPool := Foundation.Pool ConfigOp ConfigReply ConfigErr VersionTable ConfigWrite Unit ConfigRequest

/-- No versions, and no request. -/
def noVersions : ConfigPool := { committed := [], shared := () }

/-- Whatever the interleaving of the statements. -/
structure VersionsSafe (ls : List (PoolLabel ConfigRequest Surroundings ConfigErr)) : Prop where
  consistent : ∀ q, Visits (Pool.step database ConfigRequest.program) noVersions ls q →
    ∀ orgId, Consistent orgId q.committed
  unchanged : ∀ a l b, Fires (Pool.step database ConfigRequest.program) noVersions ls a l b →
    Unchanged a.committed b.committed
  rollsBack : ∀ a i b t, Fires (Pool.step database ConfigRequest.program) noVersions ls a (.commit i) b →
    a.transaction? i = some t → RollsBack t.kind a.committed b.committed

/-- However requests for versions interleave, an organisation has its versions 1 to n, one of
them active at most; what is committed does not change, and a rollback restores what it names. -/
theorem versions_safe (ls : List (PoolLabel ConfigRequest Surroundings ConfigErr)) : VersionsSafe ls := by
  have hinit : versioning.Inv noVersions :=
    Interference.inv_start [] () fun orgId => ⟨rfl,Nat.zero_le 1⟩
  obtain ⟨hinv,hmoves⟩ := hinit.run ls
  refine ⟨fun q hq orgId => (hinv q hq).good orgId,fun a l b hf => ?_,fun a i b t hf ht => ?_⟩
  · have hmove := hmoves a l b hf
    cases l with
    | commit i =>
      obtain ⟨t,-,hmove⟩ := hmove
      exact hmove.1
    | _ =>
      rw [hmove]
      exact fun _ _ row hrow => ⟨row,hrow,rfl⟩
  · obtain ⟨u,hu,hmove⟩ := hmoves a (.commit i) b hf
    obtain rfl := Option.some.inj (ht.symm.trans hu)
    exact hmove.2

end VoxForge.AgentConfig
