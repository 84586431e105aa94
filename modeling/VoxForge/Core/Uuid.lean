import Mathlib

/-! The text of a UUID: 32 hexadecimal digits in five groups. -/
namespace VoxForge.Core

def hexAlphabet : List Char := "0123456789abcdef".toList

/-- The base-16 digits of a number, most significant first, padded to a width. -/
def hexDigits (width n : Nat) : List Char := (Nat.digitsAppend 16 width n).reverse.map Nat.digitChar

private theorem idxOf_digitChar : ∀ d < 16, hexAlphabet.idxOf d.digitChar = d := by decide

private theorem digitChar_mem : ∀ d < 16, d.digitChar ∈ hexAlphabet := by decide

/-- The number that hexadecimal digits stand for. -/
def ofHexDigits (cs : List Char) : Nat := Nat.ofDigits 16 (cs.map fun c => hexAlphabet.idxOf c).reverse

theorem ofHexDigits_hexDigits (width n : Nat) : ofHexDigits (hexDigits width n) = n := by
  have hread : (hexDigits width n).map (fun c => hexAlphabet.idxOf c) =
      (Nat.digitsAppend 16 width n).reverse := by
    unfold hexDigits
    rw [List.map_map]
    refine (List.map_congr_left (g := id) fun d hd => ?_).trans (List.map_id _)
    exact idxOf_digitChar d (Nat.lt_of_mem_digitsAppend (by decide) width d (List.mem_reverse.mp hd))
  unfold ofHexDigits
  rw [hread,List.reverse_reverse]
  unfold Nat.digitsAppend
  rw [Nat.ofDigits_append_replicate_zero,Nat.ofDigits_digits]

theorem hexDigits_injective (width : Nat) : Function.Injective (hexDigits width) :=
  Function.LeftInverse.injective (ofHexDigits_hexDigits width)

theorem length_hexDigits {width n : Nat} (h : n < 16 ^ width) : (hexDigits width n).length = width := by
  unfold hexDigits
  rw [List.length_map,List.length_reverse,Nat.length_digitsAppend (by decide) width h]

theorem mem_hexDigits {width n : Nat} {c : Char} (h : c ∈ hexDigits width n) : c ∈ hexAlphabet := by
  obtain ⟨d,hd,rfl⟩ := List.mem_map.mp h
  exact digitChar_mem d (Nat.lt_of_mem_digitsAppend (by decide) width d (List.mem_reverse.mp hd))

/-- `str` of a UUID, from the number it stands for. -/
def uuidText (id : Nat) : String :=
  let hex := hexDigits 32 id
  String.ofList (hex.take 8 ++ '-' :: ((hex.drop 8).take 4 ++ '-' :: ((hex.drop 12).take 4 ++
    '-' :: ((hex.drop 16).take 4 ++ '-' :: hex.drop 20))))

theorem mem_uuidText {id : Nat} {c : Char} (h : c ∈ (uuidText id).toList) : c = '-' ∨ c ∈ hexAlphabet := by
  unfold uuidText at h
  rw [String.toList_ofList] at h
  simp only [List.mem_append,List.mem_cons] at h
  have hin (part : List Char) (hp : part ⊆ hexDigits 32 id) (hc : c ∈ part) : c ∈ hexAlphabet :=
    mem_hexDigits (hp hc)
  have htake (k l : Nat) : ((hexDigits 32 id).drop k).take l ⊆ hexDigits 32 id :=
    fun _ hx => List.mem_of_mem_drop (List.mem_of_mem_take hx)
  rcases h with h | h | h | h | h | h | h | h | h
  · exact .inr (hin _ (List.take_subset 8 _) h)
  · exact .inl h
  · exact .inr (hin _ (htake 8 4) h)
  · exact .inl h
  · exact .inr (hin _ (htake 12 4) h)
  · exact .inl h
  · exact .inr (hin _ (htake 16 4) h)
  · exact .inl h
  · exact .inr (hin _ (List.drop_subset 20 _) h)

/-- Without its dashes the text is the digits. -/
theorem filter_uuidText (id : Nat) : (uuidText id).toList.filter (· ≠ '-') = hexDigits 32 id := by
  have hkeep (part : List Char) (hp : part ⊆ hexDigits 32 id) : part.filter (· ≠ '-') = part := by
    rw [List.filter_eq_self]
    intro c hc
    have hdash : '-' ∉ hexAlphabet := by decide
    exact decide_eq_true fun heq => hdash (heq ▸ mem_hexDigits (hp hc))
  have htake (k : Nat) : ((hexDigits 32 id).drop k).take 4 ⊆ hexDigits 32 id :=
    fun _ hx => List.mem_of_mem_drop (List.mem_of_mem_take hx)
  have hjoin (k : Nat) : ((hexDigits 32 id).drop k).take 4 ++ (hexDigits 32 id).drop (k + 4) =
      (hexDigits 32 id).drop k := by
    rw [← List.drop_drop,List.take_append_drop]
  have hdash (rest : List Char) : ('-' :: rest).filter (· ≠ '-') = rest.filter (· ≠ '-') :=
    List.filter_cons_of_neg (by simp)
  unfold uuidText
  dsimp only
  rw [String.toList_ofList,List.filter_append,hdash,List.filter_append,hdash,List.filter_append,
    hdash,List.filter_append,hdash,hkeep _ (List.take_subset 8 _),hkeep _ (htake 8),hkeep _ (htake 12),
    hkeep _ (htake 16),hkeep _ (List.drop_subset 20 _),hjoin 16,hjoin 12,hjoin 8,List.take_append_drop]

theorem uuidText_injective : Function.Injective uuidText := by
  intro a b h
  apply hexDigits_injective 32
  rw [← filter_uuidText,← filter_uuidText,h]

/-- Reads the text of a UUID, and nothing else that the host language reads as one. -/
def readUuid (text : String) : Option Nat :=
  let hex := text.toList.filter (· ≠ '-')
  if hex.length = 32 ∧ ∀ c ∈ hex, c ∈ hexAlphabet then some (ofHexDigits hex) else none

theorem readUuid_uuidText {id : Nat} (h : id < 16 ^ 32) : readUuid (uuidText id) = some id := by
  unfold readUuid
  dsimp only
  rw [filter_uuidText,if_pos ⟨length_hexDigits h,fun _ hc => mem_hexDigits hc⟩,ofHexDigits_hexDigits]

end VoxForge.Core
