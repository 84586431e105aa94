import VoxForge.Core.Coercions
import VoxForge.Foundation.Dict
import VoxForge.Foundation.Fallible

/-! `json.loads`: what text is read as, and which exception other text raises. A reader
returns what it read with the text after it. -/
namespace VoxForge.Core
open Foundation

/-- `JSONDecodeError`, the `ValueError` of an integer with too many digits, and `RecursionError`. -/
inductive LoadsError where
  | decodeError
  | valueError
  | recursionError
  deriving DecidableEq, Repr

namespace JsonDecoder

def skipBlank (text : List Char) : List Char := text.dropWhile (· ∈ [' ','\t','\n','\r'])

/-! Strings -/

def hexValue (c : Char) : Option Nat :=
  if '0' ≤ c ∧ c ≤ '9' then some (c.toNat - 48)
  else if 'a' ≤ c ∧ c ≤ 'f' then some (c.toNat - 87)
  else if 'A' ≤ c ∧ c ≤ 'F' then some (c.toNat - 55)
  else none

def escapes : List (Char × Char) :=
  [('"','"'),('\\','\\'),('/','/'),('b','\x08'),('f','\x0c'),('n','\n'),('r','\r'),('t','\t')]

/-- The code points up to the closing quote; `\u` may give halves of a surrogate pair. -/
def scanUnits : List Char → Except LoadsError (List Nat × List Char)
  | [] => .error .decodeError
  | '"' :: rest => .ok ([],rest)
  | '\\' :: 'u' :: a :: b :: c :: d :: rest =>
    match [a,b,c,d].mapM hexValue with
    | none => .error .decodeError
    | some digits => do
      let (units,rest) ← scanUnits rest
      return (digits.foldl (fun n d => 16 * n + d) 0 :: units,rest)
  | '\\' :: c :: rest =>
    match escapes.lookup c with
    | none => .error .decodeError
    | some e => do
      let (units,rest) ← scanUnits rest
      return (e.toNat :: units,rest)
  | c :: rest =>
    if c.toNat < 32 then .error .decodeError
    else do
      let (units,rest) ← scanUnits rest
      return (c.toNat :: units,rest)

/-- Surrogate pairs are joined. Half a pair, which the model's text cannot hold, is read as the
replacement character. -/
def joinUnits : List Nat → List Char
  | [] => []
  | [unit] => [if unit.isValidChar then Char.ofNat unit else '\ufffd']
  | unit :: next :: units =>
    if 0xd800 ≤ unit ∧ unit < 0xdc00 ∧ 0xdc00 ≤ next ∧ next < 0xe000 then
      Char.ofNat (0x10000 + (unit - 0xd800) * 0x400 + (next - 0xdc00)) :: joinUnits units
    else (if unit.isValidChar then Char.ofNat unit else '\ufffd') :: joinUnits (next :: units)

def scanString (text : List Char) : Except LoadsError (String × List Char) := do
  let (units,rest) ← scanUnits text
  return (String.ofList (joinUnits units),rest)

/-! Numbers -/

def digitsValue (digits : List Char) : Nat := digits.foldl (fun n c => 10 * n + (c.toNat - 48)) 0

def signed (negative : Bool) (n : Nat) : Int := if negative then -n else n

/-- A sign other than those of `signs` is not read. -/
def readSign (signs : List Char) : List Char → Bool × List Char
  | [] => (false,[])
  | c :: rest => if c ∈ signs then (c = '-',rest) else (false,c :: rest)

def wholePart : List Char → List Char
  | '0' :: _ => ['0']
  | text => text.takeWhile Char.isDigit

def fractionPart : List Char → List Char
  | '.' :: rest => rest.takeWhile Char.isDigit
  | _ => []

def exponentPart : List Char → Option (Int × List Char)
  | [] => none
  | c :: rest =>
    let (negative,rest) := readSign ['+','-'] rest
    let digits := rest.takeWhile Char.isDigit
    if c ∉ ['e','E'] ∨ digits = [] then none
    else some (signed negative (digitsValue digits),rest.drop digits.length)

/-- The float of a decimal: too large is infinite, too small is zero. What lies between is kept
exact, where the decoder rounds it to a double. -/
def ofDecimal (negative : Bool) (mantissa : Nat) (exponent : Int) : PyFloat :=
  let q : ℚ := mantissa * 10 ^ exponent
  if Json.floatLimit ≤ q then .infinite negative
  else if q * 2 ^ 1075 ≤ 1 then .finite 0
  else .finite (if negative then -q else q)

/-- `sys.get_int_max_str_digits()`. -/
def maxDigits : Nat := 4300

def number (text : List Char) : Except LoadsError (Json × List Char) :=
  let (negative,text) := readSign ['-'] text
  let whole := wholePart text
  let text := text.drop whole.length
  let fraction := fractionPart text
  let text := if fraction = [] then text else text.drop (fraction.length + 1)
  if whole = [] then .error .decodeError
  else
    match exponentPart text with
    | some (exponent,rest) =>
      .ok (.float (ofDecimal negative (digitsValue (whole ++ fraction)) (exponent - fraction.length)),rest)
    | none =>
      if fraction ≠ [] then
        .ok (.float (ofDecimal negative (digitsValue (whole ++ fraction)) (-fraction.length)),text)
      else if maxDigits < whole.length then .error .valueError
      else .ok (.int (signed negative (digitsValue whole)),text)

/-! Values -/

def literals : List (String × Json) :=
  [("null",.null),("true",.bool true),("false",.bool false),("NaN",.float .nan),
    ("Infinity",.float (.infinite false)),("-Infinity",.float (.infinite true))]

/-- What is no string and no container. -/
def scalar (text : List Char) : Except LoadsError (Json × List Char) :=
  match literals.find? fun literal => literal.1.toList.isPrefixOf text with
  | some (word,v) => .ok (v,text.drop word.length)
  | none => number text

/-- The text after a delimiter, which blanks may come before. -/
def after? (delimiter : Char) (text : List Char) : Option (List Char) :=
  match skipBlank text with
  | [] => none
  | c :: rest => if c = delimiter then some rest else none

mutual

/-- `scan_once`, with what is left of the recursion limit. -/
def value : Nat → Nat → List Char → Except LoadsError (Json × List Char)
  | _,_,[] => .error .decodeError
  | 0,_,_ => .error .decodeError
  | fuel + 1,depth,c :: rest =>
    if c = '"' then do
      let (s,rest) ← scanString rest
      return (.str s,rest)
    else if c = '\x7b' then
      if depth = 0 then .error .recursionError
      else
        match after? '\x7d' rest with
        | some rest => .ok (.obj [],rest)
        | none => do
          let (entries,rest) ← members fuel (depth - 1) Dict.empty (skipBlank rest)
          return (.obj entries.entries,rest)
    else if c = '[' then
      if depth = 0 then .error .recursionError
      else
        match after? ']' rest with
        | some rest => .ok (.arr [],rest)
        | none => do
          let (entries,rest) ← items fuel (depth - 1) [] (skipBlank rest)
          return (.arr entries,rest)
    else scalar (c :: rest)

/-- The entries of an object from a key on. A key that comes again overwrites its value. -/
def members : Nat → Nat → Dict String Json → List Char → Except LoadsError (Dict String Json × List Char)
  | 0,_,_,_ => .error .decodeError
  | fuel + 1,depth,entries,text =>
    match after? '"' text with
    | none => .error .decodeError
    | some rest => do
      let (key,rest) ← scanString rest
      match after? ':' rest with
      | none => .error .decodeError
      | some rest =>
        let (v,rest) ← value fuel depth (skipBlank rest)
        match after? '\x7d' rest with
        | some rest => return (entries.set key v,rest)
        | none =>
          match after? ',' rest with
          | some rest => members fuel depth (entries.set key v) rest
          | none => .error .decodeError

/-- The items of an array from a value on. -/
def items : Nat → Nat → List Json → List Char → Except LoadsError (List Json × List Char)
  | 0,_,_,_ => .error .decodeError
  | fuel + 1,depth,entries,text => do
    let (v,rest) ← value fuel depth text
    match after? ']' rest with
    | some rest => return (entries ++ [v],rest)
    | none =>
      match after? ',' rest with
      | some rest => items fuel depth (entries ++ [v]) (skipBlank rest)
      | none => .error .decodeError

end

/-- `json.loads`; `recursionLimit` is how many containers may be nested. -/
def loads (recursionLimit : Nat) (text : String) : Except LoadsError Json :=
  match text.toList with
  | '\ufeff' :: _ => .error .decodeError
  | text => do
    let (v,rest) ← value (2 * text.length + 1) recursionLimit (skipBlank text)
    if skipBlank rest = [] then return v else .error .decodeError

/-! What is read is shorter than the text, so the reader's fuel does not run out. -/

theorem length_skipBlank (text : List Char) : (skipBlank text).length ≤ text.length :=
  (List.dropWhile_suffix _).length_le

theorem scanUnits_shorter {text rest : List Char} {units : List Nat} (h : scanUnits text = .ok (units,rest)) :
    rest.length < text.length := by
  fun_induction scanUnits text generalizing units rest with
  | case1 => cases h
  | case2 tail =>
    cases h
    exact Nat.lt_succ_self _
  | case3 => cases h
  | case4 a b c d tail digits _ ih =>
    obtain ⟨⟨more,after⟩,hscan,hrest⟩ := bind_eq_ok.mp h
    obtain ⟨-,rfl⟩ := Prod.mk.inj (Except.ok.inj hrest)
    have htail := ih hscan
    simp only [List.length_cons]
    omega
  | case5 => cases h
  | case6 c tail _ e _ ih =>
    obtain ⟨⟨more,after⟩,hscan,hrest⟩ := bind_eq_ok.mp h
    obtain ⟨-,rfl⟩ := Prod.mk.inj (Except.ok.inj hrest)
    have htail := ih hscan
    simp only [List.length_cons]
    omega
  | case7 => cases h
  | case8 c tail _ _ _ _ ih =>
    obtain ⟨⟨more,after⟩,hscan,hrest⟩ := bind_eq_ok.mp h
    obtain ⟨-,rfl⟩ := Prod.mk.inj (Except.ok.inj hrest)
    exact (ih hscan).trans (Nat.lt_succ_self _)

theorem scanString_shorter {text rest : List Char} {s : String} (h : scanString text = .ok (s,rest)) :
    rest.length < text.length := by
  obtain ⟨⟨units,after⟩,hscan,hrest⟩ := bind_eq_ok.mp h
  obtain ⟨-,rfl⟩ := Prod.mk.inj (Except.ok.inj hrest)
  exact scanUnits_shorter hscan

theorem length_readSign (signs text : List Char) : (readSign signs text).2.length ≤ text.length := by
  cases text with
  | nil => rfl
  | cons c rest =>
    rw [readSign]
    split
    · exact Nat.le_succ _
    · exact le_rfl

theorem length_wholePart (text : List Char) : (wholePart text).length ≤ text.length := by
  unfold wholePart
  split
  · simp
  · exact (List.takeWhile_prefix _).length_le

theorem exponentPart_le {text rest : List Char} {exponent : Int} (h : exponentPart text = some (exponent,rest)) :
    rest.length ≤ text.length := by
  cases text with
  | nil => cases h
  | cons c tail =>
    have hsign := length_readSign ['+','-'] tail
    rw [exponentPart] at h
    rcases hread : readSign ['+','-'] tail with ⟨negative,after⟩
    rw [hread] at h hsign
    obtain ⟨-,hsome⟩ := Option.ite_none_left_eq_some.mp h
    obtain ⟨-,rfl⟩ := Prod.mk.inj (Option.some.inj hsome)
    rw [List.length_drop,List.length_cons]
    exact (Nat.sub_le _ _).trans (hsign.trans (Nat.le_succ _))

theorem number_shorter {text rest : List Char} {v : Json} (h : number text = .ok (v,rest)) :
    rest.length < text.length := by
  have hsign := length_readSign ['-'] text
  have hwhole := length_wholePart (readSign ['-'] text).2
  unfold number at h
  dsimp only at h
  generalize (readSign ['-'] text).1 = negative at h
  generalize (readSign ['-'] text).2 = body at h hsign hwhole
  split at h
  · cases h
  next hne =>
  have hpos : 0 < (wholePart body).length := List.length_pos_iff.mpr hne
  generalize hfraction : fractionPart (body.drop (wholePart body).length) = fraction at h
  have hafter : (if fraction = [] then body.drop (wholePart body).length
      else (body.drop (wholePart body).length).drop (fraction.length + 1)).length < text.length := by
    split <;> simp only [List.length_drop] <;> omega
  generalize (if fraction = [] then body.drop (wholePart body).length
      else (body.drop (wholePart body).length).drop (fraction.length + 1)) = after at h hafter
  split at h
  · next exponent tail hexp =>
    obtain ⟨-,rfl⟩ := Prod.mk.inj (Except.ok.inj h)
    exact (exponentPart_le hexp).trans_lt hafter
  · split at h
    · obtain ⟨-,rfl⟩ := Prod.mk.inj (Except.ok.inj h)
      exact hafter
    · split at h
      · cases h
      · obtain ⟨-,rfl⟩ := Prod.mk.inj (Except.ok.inj h)
        exact hafter

theorem scalar_shorter {text rest : List Char} {v : Json} (h : scalar text = .ok (v,rest)) :
    rest.length < text.length := by
  unfold scalar at h
  split at h
  · next word v' hfind =>
    obtain ⟨-,rfl⟩ := Prod.mk.inj (Except.ok.inj h)
    have hprefix : word.toList <+: text := by simpa using List.find?_some hfind
    have hword := hprefix.length_le
    have hmem := List.mem_of_find?_eq_some hfind
    have hpos : 0 < word.length := by
      have hall : literals.all (fun literal => 0 < literal.1.length) = true := by decide
      simpa using List.all_eq_true.mp hall _ hmem
    rw [String.length_toList] at hword
    rw [List.length_drop]
    omega
  · exact number_shorter h

theorem after?_shorter {delimiter : Char} {text rest : List Char} (h : after? delimiter text = some rest) :
    rest.length < text.length := by
  have hskip := length_skipBlank text
  unfold after? at h
  split at h
  · cases h
  · next c tail heq =>
    obtain ⟨-,htail⟩ := Option.ite_none_right_eq_some.mp h
    obtain rfl := Option.some.inj htail
    rw [heq] at hskip
    exact hskip

/-- With enough fuel more is not used, and what is left of the text is shorter. -/
def Reads {α : Type} (reader : Nat → List Char → Except LoadsError (α × List Char)) (n : Nat)
    (text : List Char) : Prop :=
  reader (n + 1) text = reader n text ∧ ∀ a rest, reader n text = .ok (a,rest) → rest.length < text.length

structure Suffices (n : Nat) : Prop where
  value : ∀ depth text, 2 * text.length < n → Reads (value · depth) n text
  members : ∀ depth entries text, 2 * text.length < n → Reads (members · depth entries) n text
  items : ∀ depth entries text, 2 * text.length + 1 < n → Reads (items · depth entries) n text

theorem suffices_items {n : Nat} (ih : Suffices n) (depth : Nat) (entries : List Json) (text : List Char)
    (hlength : 2 * text.length + 1 < n + 1) : Reads (items · depth entries) (n + 1) text := by
  obtain ⟨hmore,hshorter⟩ := ih.value depth text (by omega)
  unfold Reads
  dsimp only at hmore hshorter ⊢
  rw [items,items,hmore]
  cases hvalue : value n depth text with
  | error e => exact ⟨rfl,nofun⟩
  | ok r =>
    obtain ⟨v,rest⟩ := r
    have hrest := hshorter v rest hvalue
    simp only [bind,Except.bind]
    cases hclose : after? ']' rest with
    | some tail =>
      refine ⟨rfl,fun a rest' h => ?_⟩
      obtain ⟨-,rfl⟩ := Prod.mk.inj (Except.ok.inj h)
      exact (after?_shorter hclose).trans hrest
    | none =>
      cases hcomma : after? ',' rest with
      | none => exact ⟨rfl,nofun⟩
      | some tail =>
        have htail := (length_skipBlank tail).trans_lt (after?_shorter hcomma)
        obtain ⟨hmore',hshorter'⟩ := ih.items depth (entries ++ [v]) (skipBlank tail) (by omega)
        exact ⟨hmore',fun a rest' h => (hshorter' a rest' h).trans (htail.trans hrest)⟩

theorem suffices_members {n : Nat} (ih : Suffices n) (depth : Nat) (entries : Dict String Json) (text : List Char)
    (hlength : 2 * text.length < n + 1) : Reads (members · depth entries) (n + 1) text := by
  unfold Reads
  dsimp only
  rw [members,members]
  cases hquote : after? '"' text with
  | none => exact ⟨rfl,nofun⟩
  | some body =>
    have hbody := after?_shorter hquote
    dsimp only
    cases hkey : scanString body with
    | error e => exact ⟨rfl,nofun⟩
    | ok r =>
      obtain ⟨key,rest⟩ := r
      have hrest := (scanString_shorter hkey).trans hbody
      simp only [bind,Except.bind]
      cases hcolon : after? ':' rest with
      | none => exact ⟨rfl,nofun⟩
      | some body' =>
        have hbody' := (length_skipBlank body').trans_lt ((after?_shorter hcolon).trans hrest)
        obtain ⟨hmore,hshorter⟩ := ih.value depth (skipBlank body') (by omega)
        dsimp only at hmore hshorter ⊢
        rw [hmore]
        cases hvalue : value n depth (skipBlank body') with
        | error e => exact ⟨rfl,nofun⟩
        | ok r =>
          obtain ⟨v,after⟩ := r
          have hafter := (hshorter v after hvalue).trans hbody'
          dsimp only
          cases hclose : after? '\x7d' after with
          | some tail =>
            refine ⟨rfl,fun a rest' h => ?_⟩
            obtain ⟨-,rfl⟩ := Prod.mk.inj (Except.ok.inj h)
            exact (after?_shorter hclose).trans hafter
          | none =>
            cases hcomma : after? ',' after with
            | none => exact ⟨rfl,nofun⟩
            | some tail =>
              have htail := (after?_shorter hcomma).trans hafter
              obtain ⟨hmore',hshorter'⟩ := ih.members depth (entries.set key v) tail (by omega)
              exact ⟨hmore',fun a rest' h => (hshorter' a rest' h).trans htail⟩

theorem suffices_value {n : Nat} (ih : Suffices n) (depth : Nat) (text : List Char)
    (hlength : 2 * text.length < n + 1) : Reads (value · depth) (n + 1) text := by
  unfold Reads
  dsimp only
  cases text with
  | nil => exact ⟨by rw [value,value],by rw [value]; nofun⟩
  | cons c rest =>
    rw [List.length_cons] at hlength
    have hskip := length_skipBlank rest
    rw [value,value]
    by_cases hquote : c = '"'
    · simp only [if_pos hquote]
      refine ⟨trivial,fun a rest' h => ?_⟩
      obtain ⟨⟨s,after⟩,hscan,hs⟩ := bind_eq_ok.mp h
      obtain ⟨-,rfl⟩ := Prod.mk.inj (Except.ok.inj hs)
      exact (scanString_shorter hscan).trans (Nat.lt_succ_self _)
    simp only [if_neg hquote]
    by_cases hdepth : depth = 0
    · simp only [if_pos hdepth]
      refine ⟨trivial,fun a rest' h => ?_⟩
      split_ifs at h
      exact scalar_shorter h
    simp only [if_neg hdepth]
    by_cases hbrace : c = '\x7b'
    · simp only [if_pos hbrace]
      cases hempty : after? '\x7d' rest with
      | some tail =>
        refine ⟨rfl,fun a rest' h => ?_⟩
        obtain ⟨-,rfl⟩ := Prod.mk.inj (Except.ok.inj h)
        exact (after?_shorter hempty).trans (Nat.lt_succ_self _)
      | none =>
        obtain ⟨hmore,hshorter⟩ := ih.members (depth - 1) Dict.empty (skipBlank rest) (by omega)
        dsimp only at hmore hshorter ⊢
        rw [hmore]
        refine ⟨rfl,fun a rest' h => ?_⟩
        obtain ⟨⟨entries,after⟩,hread,hs⟩ := bind_eq_ok.mp h
        obtain ⟨-,rfl⟩ := Prod.mk.inj (Except.ok.inj hs)
        exact ((hshorter _ _ hread).trans_le hskip).trans (Nat.lt_succ_self _)
    simp only [if_neg hbrace]
    by_cases hbracket : c = '['
    · simp only [if_pos hbracket]
      cases hempty : after? ']' rest with
      | some tail =>
        refine ⟨rfl,fun a rest' h => ?_⟩
        obtain ⟨-,rfl⟩ := Prod.mk.inj (Except.ok.inj h)
        exact (after?_shorter hempty).trans (Nat.lt_succ_self _)
      | none =>
        obtain ⟨hmore,hshorter⟩ := ih.items (depth - 1) [] (skipBlank rest) (by omega)
        dsimp only at hmore hshorter ⊢
        rw [hmore]
        refine ⟨rfl,fun a rest' h => ?_⟩
        obtain ⟨⟨entries,after⟩,hread,hs⟩ := bind_eq_ok.mp h
        obtain ⟨-,rfl⟩ := Prod.mk.inj (Except.ok.inj hs)
        exact ((hshorter _ _ hread).trans_le hskip).trans (Nat.lt_succ_self _)
    simp only [if_neg hbracket]
    exact ⟨trivial,fun a rest' h => scalar_shorter h⟩

theorem suffices_all (n : Nat) : Suffices n := by
  induction n with
  | zero => exact ⟨nofun,nofun,nofun⟩
  | succ n ih => exact ⟨suffices_value ih,suffices_members ih,suffices_items ih⟩

/-- Any more fuel than `loads` takes reads the same. -/
theorem value_fuel (depth : Nat) (text : List Char) (more : Nat) :
    value (2 * text.length + 1 + more) depth text = value (2 * text.length + 1) depth text := by
  induction more with
  | zero => rfl
  | succ more ih =>
    have hmore := (suffices_all (2 * text.length + 1 + more)).value depth text (by omega)
    exact hmore.1.trans ih

/-- No literal and no number is an object. -/
theorem scalar_ne_obj {text rest : List Char} {entries : List (String × Json)} :
    scalar text ≠ .ok (.obj entries,rest) := by
  intro h
  unfold scalar at h
  split at h
  · next word v hfind =>
    obtain ⟨rfl,-⟩ := Prod.mk.inj (Except.ok.inj h)
    have hmem := List.mem_of_find?_eq_some hfind
    simp [literals] at hmem
  · unfold number at h
    dsimp only at h
    split_ifs at h
    all_goals
      split at h
      · cases h
      · cases h

/-- An object is read from text that opens one. -/
theorem value_obj {fuel depth : Nat} {text rest : List Char} {entries : List (String × Json)}
    (h : value fuel depth text = .ok (.obj entries,rest)) : '\x7b' ∈ text := by
  cases text with
  | nil =>
    rw [value] at h
    cases h
  | cons c tail =>
    by_contra hout
    have hbrace : c ≠ '\x7b' := fun heq => hout (heq ▸ List.mem_cons_self)
    cases fuel with
    | zero =>
      rw [value] at h
      · cases h
      · nofun
    | succ fuel =>
      rw [value,if_neg hbrace] at h
      by_cases hquote : c = '"'
      · rw [if_pos hquote] at h
        obtain ⟨⟨s,after⟩,-,hs⟩ := bind_eq_ok.mp h
        cases hs
      rw [if_neg hquote] at h
      by_cases hbracket : c = '['
      · rw [if_pos hbracket] at h
        split_ifs at h
        split at h
        · cases h
        · obtain ⟨⟨s,after⟩,-,hs⟩ := bind_eq_ok.mp h
          cases hs
      rw [if_neg hbracket] at h
      exact scalar_ne_obj h

theorem loads_obj {recursionLimit : Nat} {text : String} {entries : List (String × Json)}
    (h : loads recursionLimit text = .ok (.obj entries)) : '\x7b' ∈ text.toList := by
  unfold loads at h
  split at h
  · cases h
  · obtain ⟨⟨v,rest⟩,hvalue,hend⟩ := bind_eq_ok.mp h
    dsimp only at hend
    split_ifs at hend
    obtain rfl := Except.ok.inj hend
    exact (List.dropWhile_suffix _).subset (value_obj hvalue)

attribute [irreducible] loads

end JsonDecoder
end VoxForge.Core
