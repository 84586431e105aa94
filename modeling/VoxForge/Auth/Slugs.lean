import Mathlib.Data.List.Nodup
import Mathlib.Data.List.Perm.Subperm
import VoxForge.Core.Text

/-! The slugs of organisations: words of letters and digits, and the search for one that is free. -/
namespace VoxForge.Auth
open Core Foundation

/-- `[a-z0-9]`. -/
def inSlug (c : Char) : Bool := c.isLower || c.isDigit

/-- `lower` is `str.lower`. -/
def slugify (lower : String → String) (name : String) : String :=
  let slug := replaceRuns (!inSlug ·) '-' false (lower name).toList
  let slug := (slug.dropWhile (· = '-')).rdropWhile (· = '-')
  if slug = [] then "org" else String.ofList slug

/-- The candidates of `_unique_slug`. -/
def numbered (base : String) (counter : Nat) : String :=
  if counter = 1 then base else base ++ "-" ++ toString counter

/-- The loop of `_unique_slug` from a counter on, for some queries. -/
def uniqueSlug (taken : List String) (base : String) : (queries counter : Nat) → Option String
  | 0,_ => none
  | queries + 1,counter =>
    if numbered base counter ∈ taken then uniqueSlug taken base queries (counter + 1)
    else some (numbered base counter)

structure OrganizationRow where
  name : String
  slug : String
  deriving DecidableEq, Repr

/-- The arguments of `OrganizationRepository.create`. -/
structure NewOrganization where
  name : String
  slug : Option String := none

/-- `slug or slugify(name)`. -/
def NewOrganization.base (lower : String → String) (creation : NewOrganization) : String :=
  if creation.slug.getD "" = "" then slugify lower creation.name else creation.slug.getD ""

/-- `OrganizationRepository.create`, whose columns hold 255 characters; `none` is a failed flush.
PostgreSQL also takes a longer text if all beyond that is spaces, which it cuts off, and SQLite
takes any text; neither is in the model. -/
def createRow (lower : String → String) (rows : List OrganizationRow) (creation : NewOrganization) :
    Option (List OrganizationRow) := do
  let slug ← uniqueSlug (rows.map (·.slug)) (creation.base lower) (rows.length + 1) 1
  if creation.name.length ≤ 255 ∧ slug.length ≤ 255 then some (rows ++ [{ name := creation.name,slug }]) else none

/-- Creations one after the other; one that fails is rolled back. -/
def createdRows (lower : String → String) (creations : List NewOrganization) : List OrganizationRow :=
  creations.foldl (fun rows creation => (createRow lower rows creation).getD rows) []

/-! The search -/

section search
variable {taken : List String} {base : String}

theorem numbered_injective {j k : Nat} (h : numbered base j = numbered base k) : j = k := by
  have hlonger (n : Nat) : (base ++ "-" ++ toString n).toList ≠ base.toList := by
    intro hsame
    have hlength := congrArg List.length hsame
    simp at hlength
  unfold numbered at h
  split at h <;> split at h
  · next hj hk => exact hj.trans hk.symm
  · exact absurd (congrArg String.toList h).symm (hlonger k)
  · exact absurd (congrArg String.toList h) (hlonger j)
  · have hdigits := congrArg String.toList h
    simp only [String.toList_append,List.append_assoc] at hdigits
    exact toString_injective (List.append_cancel_left (List.append_cancel_left hdigits))

/-- The first candidate that no organisation has, found with at most one query more than there are. -/
structure FirstFree (taken : List String) (base slug : String) (counter : Nat) : Prop where
  free : slug ∉ taken
  bound : 1 ≤ counter ∧ counter ≤ taken.length + 1
  candidate : slug = numbered base counter
  first : ∀ earlier, 1 ≤ earlier → earlier < counter → numbered base earlier ∈ taken

theorem uniqueSlug_some {queries counter : Nat} {slug : String}
    (h : uniqueSlug taken base queries counter = some slug) : slug ∉ taken ∧ ∃ found, counter ≤ found ∧
      found < counter + queries ∧ slug = numbered base found ∧
      ∀ earlier, counter ≤ earlier → earlier < found → numbered base earlier ∈ taken := by
  induction queries generalizing counter with
  | zero => cases h
  | succ queries ih =>
    rw [uniqueSlug] at h
    split at h
    · next htaken =>
      obtain ⟨hfree,found,hle,hlt,hslug,hfirst⟩ := ih h
      refine ⟨hfree,found,by omega,by omega,hslug,fun earlier hearlier hbefore => ?_⟩
      by_cases hhere : earlier = counter
      · exact hhere ▸ htaken
      · exact hfirst earlier (by omega) hbefore
    · next hfree =>
      obtain rfl := Option.some.inj h
      exact ⟨hfree,counter,Nat.le_refl _,by omega,rfl,fun earlier _ _ => by omega⟩

theorem uniqueSlug_none {queries counter : Nat} (h : uniqueSlug taken base queries counter = none) :
    ∀ i < queries, numbered base (counter + i) ∈ taken := by
  induction queries generalizing counter with
  | zero => exact fun i hi => absurd hi (Nat.not_lt_zero i)
  | succ queries ih =>
    rw [uniqueSlug] at h
    split at h
    · next htaken =>
      intro i hi
      cases i with
      | zero => exact htaken
      | succ i =>
        have hlater := ih h i (Nat.lt_of_succ_lt_succ hi)
        rwa [Nat.add_right_comm] at hlater
    · cases h

/-- The loop ends: the candidates differ, so one more of them than there are slugs are not all taken. -/
theorem uniqueSlug_ends (taken : List String) (base : String) :
    ∃ slug counter, uniqueSlug taken base (taken.length + 1) 1 = some slug ∧ FirstFree taken base slug counter := by
  cases h : uniqueSlug taken base (taken.length + 1) 1 with
  | none =>
    have hall := uniqueSlug_none h
    have hnodup : ((List.range (taken.length + 1)).map fun i => numbered base (1 + i)).Nodup := by
      refine List.Nodup.map (fun i j hij => ?_) List.nodup_range
      have := numbered_injective hij
      omega
    have hsubset : (List.range (taken.length + 1)).map (fun i => numbered base (1 + i)) ⊆ taken := by
      intro slug hslug
      obtain ⟨i,hi,rfl⟩ := List.mem_map.mp hslug
      exact hall i (List.mem_range.mp hi)
    have hlength := (List.subperm_of_subset hnodup hsubset).length_le
    rw [List.length_map,List.length_range] at hlength
    omega
  | some slug =>
    obtain ⟨hfree,counter,hle,hlt,hslug,hfirst⟩ := uniqueSlug_some h
    exact ⟨slug,counter,rfl,hfree,⟨hle,by omega⟩,hslug,hfirst⟩

end search

/-! Well-formed slugs -/

/-- Words of letters and digits, with single hyphens between them. -/
def WellFormedSlug (slug : String) : Prop :=
  ∃ ws, ws ≠ [] ∧ (∀ w ∈ ws, w ≠ [] ∧ ∀ c ∈ w, inSlug c = true) ∧ slug.toList = ['-'].intercalate ws

theorem wellFormed_slugify (lower : String → String) (name : String) : WellFormedSlug (slugify lower name) := by
  have hhyphen {c : Char} {begun : Bool} {text : List Char} (h : c ∈ replaceRuns (!inSlug ·) '-' begun text) :
      decide (c = '-') = !inSlug c := by
    rcases mem_replaceRuns h with rfl | ⟨-,hin⟩
    · rfl
    · have hne : c ≠ '-' := by
        rintro rfl
        cases hin
      rw [hin,decide_eq_false hne]
  have hslug : ((replaceRuns (!inSlug ·) '-' false (lower name).toList).dropWhile (· = '-')).rdropWhile (· = '-') =
      ['-'].intercalate (words (!inSlug ·) (lower name).toList) := by
    rw [dropWhile_congr fun c hc => hhyphen hc,
      rdropWhile_congr fun c hc => hhyphen ((List.dropWhile_sublist _).subset hc)]
    exact trim_replaceRuns rfl
  unfold slugify
  dsimp only
  rw [hslug]
  split
  · refine ⟨["org".toList],by simp,?_,rfl⟩
    intro w hw
    obtain rfl := List.mem_singleton.mp hw
    have hall : "org".toList.all inSlug = true := by decide +kernel
    exact ⟨by simp,List.all_eq_true.mp hall⟩
  · next hne =>
    refine ⟨words (!inSlug ·) (lower name).toList,?_,?_,String.toList_ofList⟩
    · intro hnil
      rw [hnil] at hne
      exact hne rfl
    · intro w hw
      obtain ⟨hsome,hsolid⟩ := mem_words hw
      exact ⟨hsome,fun c hc => by simpa using hsolid c hc⟩

theorem WellFormedSlug.numbered {base : String} (h : WellFormedSlug base) (counter : Nat) :
    WellFormedSlug (numbered base counter) := by
  unfold Auth.numbered
  split
  · exact h
  · obtain ⟨ws,hne,hws,hbase⟩ := h
    refine ⟨ws ++ [(toString counter).toList],by simp,?_,?_⟩
    · intro w hw
      rcases List.mem_append.mp hw with hold | hnew
      · exact hws w hold
      · obtain rfl := List.mem_singleton.mp hnew
        rw [toList_toString]
        refine ⟨Nat.toDigits_ne_nil,fun c hc => ?_⟩
        rw [inSlug,Nat.isDigit_of_mem_toDigits (by decide) (by decide) hc,Bool.or_true]
    · rw [intercalate_concat hne,← hbase]
      simp

/-! Every run -/

section runs
variable {lower : String → String} {rows after : List OrganizationRow} {creation : NewOrganization}

/-- What a creation does: a row with the first free slug is added, if both of its texts fit. -/
theorem createRow_eq (lower : String → String) (rows : List OrganizationRow) (creation : NewOrganization) :
    ∃ slug counter, FirstFree (rows.map (·.slug)) (creation.base lower) slug counter ∧
      createRow lower rows creation = if creation.name.length ≤ 255 ∧ slug.length ≤ 255 then
        some (rows ++ [{ name := creation.name,slug }]) else none := by
  obtain ⟨slug,counter,hfound,hfirst⟩ := uniqueSlug_ends (rows.map (·.slug)) (creation.base lower)
  rw [List.length_map] at hfound
  refine ⟨slug,counter,hfirst,?_⟩
  unfold createRow
  rw [hfound]
  rfl

/-- The slugs differ, and are well formed where they come from names. -/
structure Slugged (named : Bool) (rows : List OrganizationRow) : Prop where
  distinct : (rows.map (·.slug)).Nodup
  wellFormed : named = true → ∀ row ∈ rows, WellFormedSlug row.slug

theorem slugged_createRow {named : Bool} (h : Slugged named rows) (hnamed : named = true → creation.slug = none) :
    Slugged named ((createRow lower rows creation).getD rows) := by
  obtain ⟨slug,counter,hfirst,heq⟩ := createRow_eq lower rows creation
  rw [heq]
  split
  · constructor
    · rw [Option.getD_some,List.map_append,List.map_singleton]
      refine List.nodup_append.mpr ⟨h.distinct,List.nodup_singleton _,?_⟩
      rintro old hold new hnew rfl
      rw [List.mem_singleton.mp hnew] at hold
      exact hfirst.free hold
    · intro htrue row hrow
      rcases List.mem_append.mp hrow with hold | hnew
      · exact h.wellFormed htrue row hold
      · obtain rfl := List.mem_singleton.mp hnew
        have hbase : creation.base lower = slugify lower creation.name := by simp [NewOrganization.base,hnamed htrue]
        have hslug := hfirst.candidate
        rw [hbase] at hslug
        rw [hslug]
        exact (wellFormed_slugify lower creation.name).numbered counter
  · exact h

theorem slugged_createdRows {named : Bool} (creations : List NewOrganization)
    (hnamed : named = true → ∀ creation ∈ creations, creation.slug = none) :
    Slugged named (createdRows lower creations) := by
  induction creations using List.reverseRecOn with
  | nil => exact ⟨List.nodup_nil,fun _ row hrow => absurd hrow List.not_mem_nil⟩
  | append_singleton creations creation ih =>
    have hbefore := ih fun htrue c hc => hnamed htrue c (List.mem_append_left _ hc)
    unfold createdRows at hbefore ⊢
    rw [List.foldl_append]
    exact slugged_createRow hbefore fun htrue => hnamed htrue creation (by simp)

/-- After any creations the slugs differ, those made of names are well formed, and the search of
the next creation ends at the first candidate that is free. -/
theorem organization_slugs (lower : String → String) (creations : List NewOrganization) (creation : NewOrganization) :
    ((createdRows lower creations).map (·.slug)).Nodup ∧
    ((∀ c ∈ creations, c.slug = none) → ∀ row ∈ createdRows lower creations, WellFormedSlug row.slug) ∧
    ∃ slug counter, FirstFree ((createdRows lower creations).map (·.slug)) (creation.base lower) slug counter ∧
      createRow lower (createdRows lower creations) creation =
        if creation.name.length ≤ 255 ∧ slug.length ≤ 255 then
          some (createdRows lower creations ++ [{ name := creation.name,slug }]) else none := by
  have hdistinct : Slugged false (createdRows lower creations) :=
    slugged_createdRows creations fun h => absurd h Bool.false_ne_true
  refine ⟨hdistinct.distinct,fun hnamed => ?_,createRow_eq ..⟩
  have hwell : Slugged true (createdRows lower creations) := slugged_createdRows creations fun _ => hnamed
  exact hwell.wellFormed rfl

example : (createdRows id [⟨"acme","acme-2"⟩,⟨"acme",none⟩,⟨"acme!",none⟩,⟨"--",none⟩]).map (·.slug) =
    ["acme-2","acme","acme-3","org"] := by decide +kernel

end runs
end VoxForge.Auth
