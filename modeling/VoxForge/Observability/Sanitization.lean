import Mathlib
import VoxForge.Core.Text
import VoxForge.Foundation.Scanning

/-! What is redacted in a structured log event before it is rendered. -/
namespace VoxForge.Observability
open Foundation Core

def redacted : List Char := "[REDACTED]".toList

def literal (s : String) : List (Char → Bool) := s.toList.map fun c d => d == c

/-- The letter by which letters that differ in case only are compared. -/
def fold (c : Char) : Char :=
  if c = '\u0130' ∨ c = '\u0131' then 'i'
  else if c = '\u017f' then 's'
  else if c = '\u212a' then 'k'
  else c.toLower

/-- The letters of a lower case word in any case. -/
def ignoringCase (s : String) : List (Char → Bool) := s.toList.map fun c d => fold d == c

def urlsafe (c : Char) : Bool := c.isAlphanum || c == '_' || c == '-'

/-- `[A-Za-z0-9._~+/=-]` in any case, to which four letters beyond ASCII belong. -/
def bearerLetter (c : Char) : Bool :=
  c.isAlphanum || ['.','_','~','+','/','=','-','\u0130','\u0131','\u017f','\u212a'].contains c

theorem urlsafe_dot {c : Char} (h : urlsafe c = true) : ¬(c == '.') = true := by
  intro hc
  rw [eq_of_beq hc] at h
  exact absurd h (by decide)

theorem bearerLetter_space {c : Char} (h : isSpace c = true) : bearerLetter c = false := by
  have halnum : c.isAlphanum = false := by
    cases hc : c.isAlphanum with
    | false => rfl
    | true =>
      simp only [Char.isAlphanum,Char.isAlpha,Char.isUpper,Char.isLower,Char.isDigit,Bool.or_eq_true,
        Bool.and_eq_true,decide_eq_true_eq,ge_iff_le,UInt32.le_iff_toNat_le] at hc
      simp only [isSpace,Char.toNat,Bool.or_eq_true,Bool.and_eq_true,decide_eq_true_eq,beq_iff_eq] at h
      change (65 ≤ c.val.toNat ∧ c.val.toNat ≤ 90 ∨ 97 ≤ c.val.toNat ∧ c.val.toNat ≤ 122) ∨
        48 ≤ c.val.toNat ∧ c.val.toNat ≤ 57 at hc
      omega
  have hother : ∀ d ∈ ['.','_','~','+','/','=','-','\u0130','\u0131','\u017f','\u212a'],
      isSpace d = false := List.all_iff_forall_prop.mp (by decide)
  unfold bearerLetter
  rw [halnum,Bool.false_or]
  refine Bool.eq_false_iff.mpr fun hc => ?_
  rw [hother c (List.contains_iff_mem.mp hc)] at h
  cases h

theorem separator_space {c : Char} (h : isSpace c = true) : ¬(c == ':' || c == '=') = true := by
  rw [Bool.or_eq_true]
  rintro (hc | hc) <;> rw [eq_of_beq hc] at h <;> exact absurd h (by decide)

/-- `eyJ[A-Za-z0-9_-]+\.eyJ[A-Za-z0-9_-]+\.[A-Za-z0-9_-]+`. -/
def jwtPattern : Redaction Char where
  words := [[]]
  body := (literal "eyJ").map .one ++ .run 1 urlsafe :: ((literal ".eyJ").map .one ++
    .run 1 urlsafe :: ((literal ".").map .one ++ [.run 1 urlsafe]))
  mark := redacted
  deterministic := by
    refine Item.deterministic_word ⟨fun _ => urlsafe_dot,?_⟩
    exact Item.deterministic_word ⟨fun _ => urlsafe_dot,Item.deterministic_word Item.deterministic_last⟩
  progress := nofun

/-- `vxf_[A-Za-z0-9]{20,}`. -/
def apiKeyPattern : Redaction Char where
  words := [[]]
  body := (literal "vxf_").map .one ++ [.run 20 Char.isAlphanum]
  mark := redacted
  deterministic := Item.deterministic_word Item.deterministic_last
  progress := nofun

/-- `Bearer\s+[A-Za-z0-9._~+/=-]+`, in any case. -/
def bearerPattern : Redaction Char where
  words := [[]]
  body := (ignoringCase "bearer").map .one ++ [.run 1 isSpace,.run 1 bearerLetter]
  mark := "Bearer ".toList ++ redacted
  deterministic := by
    refine Item.deterministic_word ⟨fun c hc h => ?_,Item.deterministic_last⟩
    simp [Item.Starts,bearerLetter_space hc] at h
  progress := nofun

def secretKeys : List String := ["password","secret","token","api_key","apikey","authorization"]

/-- `(password|secret|token|api_key|apikey|authorization)\s*[:=]\s*\S+`, in any case. -/
def secretKeyPattern : Redaction Char where
  words := secretKeys.map ignoringCase
  body := [.run 0 isSpace,.one fun c => c == ':' || c == '=',.run 0 isSpace,.run 1 fun c => !isSpace c]
  mark := '=' :: redacted
  deterministic := by
    refine ⟨fun _ => separator_space,fun c hc h => ?_,Item.deterministic_last⟩
    simp [Item.Starts,hc] at h
  progress := by
    rintro ⟨a,rest,h,-,-,c,rest',rfl,-⟩
    exact absurd h.symm (by simp)

def sanitizeText (text : List Char) : List Char :=
  secretKeyPattern.substitute (bearerPattern.substitute (apiKeyPattern.substitute (jwtPattern.substitute text)))

def sanitizeString (value : String) : String :=
  if value = "" then value else String.ofList (sanitizeText value.toList)

/-- A value of a log event; `other` has no text of its own. -/
inductive LogValue where
  | str (value : String)
  | dict (entries : List (String × LogValue))
  | list (items : List LogValue)
  | tuple (items : List LogValue)
  | other

mutual

def sanitizeValue : LogValue → LogValue
  | .str value => .str (sanitizeString value)
  | .dict entries => .dict (sanitizeEntries entries)
  | .list items => .list (sanitizeItems items)
  | .tuple items => .tuple items
  | .other => .other

def sanitizeEntries : List (String × LogValue) → List (String × LogValue)
  | [] => []
  | (key,value) :: rest => (key,sanitizeValue value) :: sanitizeEntries rest

def sanitizeItems : List LogValue → List LogValue
  | [] => []
  | item :: rest => sanitizeValue item :: sanitizeItems rest

end

def sanitizeLogEvent (eventDict : List (String × LogValue)) : List (String × LogValue) :=
  sanitizeEntries eventDict

end VoxForge.Observability
