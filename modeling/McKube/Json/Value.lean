import McKube.GoLib.Strconv

/-!
# JSON values and their texts

Values as `encoding/json` sees them: a number is kept as its literal, and the members of an
object in the order of the text, with duplicates.  `print` is `json.Marshal`: no white space,
and strings escaped as Go does it, with `<`, `>` and `&` escaped too.

* `NumberState`: the grammar of a number, as the automaton of Go's scanner.
* `Number`: a literal that this automaton accepts.
* `escapeChar`: how one character of a string is written.
-/

namespace Json

open GoLib

/-! ## Numbers -/

/-- Where the scanner stands in a number. -/
inductive NumberState where
  | minus
  | zero
  | int
  | point
  | frac
  | exp
  | expSign
  | expDigits
  deriving DecidableEq, Repr

namespace NumberState

/-- What may follow a complete mantissa without a fraction, and with one. -/
def exponent (c : Char) : Option NumberState := if c = 'e' ∨ c = 'E' then some .exp else none

def fraction (c : Char) : Option NumberState := if c = '.' then some .point else exponent c

def step : NumberState → Char → Option NumberState
  | .minus, c => if c = '0' then some .zero else if c.isDigit then some .int else none
  | .zero, c => fraction c
  | .int, c => if c.isDigit then some .int else fraction c
  | .point, c => if c.isDigit then some .frac else none
  | .frac, c => if c.isDigit then some .frac else exponent c
  | .exp, c => if c = '+' ∨ c = '-' then some .expSign else if c.isDigit then some .expDigits else none
  | .expSign, c => if c.isDigit then some .expDigits else none
  | .expDigits, c => if c.isDigit then some .expDigits else none

/-- The first character of a number. -/
def start (c : Char) : Option NumberState := if c = '-' then some .minus else step .minus c

/-- The number may end here. -/
def accepting : NumberState → Bool
  | .zero | .int | .frac | .expDigits => true
  | .minus | .point | .exp | .expSign => false

/-- The state after a text from its first character on. -/
def read : GoString → Option NumberState
  | [] => none
  | c :: rest => (start c).bind fun st => rest.foldlM step st

theorem read_singleton (c : Char) : read [c] = start c := by
  show (start c).bind _ = start c
  cases start c <;> rfl

theorem read_concat {s : GoString} {st : NumberState} (h : read s = some st) (c : Char) :
    read (s ++ [c]) = st.step c := by
  cases s with
  | nil => cases h
  | cons d rest =>
      have h' : ((start d).bind fun st => rest.foldlM step st) = some st := h
      show ((start d).bind fun st => (rest ++ [c]).foldlM step st) = _
      cases hstart : start d with
      | none =>
          rw [hstart] at h'
          cases h'
      | some st' =>
          rw [hstart, Option.bind_some] at h'
          rw [Option.bind_some, List.foldlM_append, h']
          show [c].foldlM step st = _
          rw [List.foldlM_cons]
          cases st.step c <;> rfl

end NumberState

/-- The literal of a number. -/
structure Number where
  literal : GoString
  valid : (NumberState.read literal).any NumberState.accepting = true
  deriving DecidableEq

/-- The digits of a number without its sign. -/
theorem foldlM_toDigits (n : Nat) : ((Nat.toDigits 10 n).foldlM NumberState.step .minus) =
    some (if n = 0 then NumberState.zero else .int) := by
  induction n using Nat.strongRecOn with
  | ind n ih =>
      rcases Nat.lt_or_ge n 10 with hlt | hge
      · rw [Nat.toDigits_of_lt_base hlt]
        have hall : (List.range 10).all (fun n => decide
            ([n.digitChar].foldlM NumberState.step .minus =
              some (if n = 0 then NumberState.zero else .int))) = true := by decide
        exact of_decide_eq_true (List.all_eq_true.mp hall n (List.mem_range.mpr hlt))
      · rw [Nat.toDigits_of_base_le (by omega) hge, List.foldlM_append, ih (n / 10) (by omega),
          if_neg (by omega), if_neg (by omega)]
        have hdigit : (n % 10).digitChar.isDigit = true :=
          Nat.isDigit_of_mem_toDigits (b := 10) (n := n) (by omega) (by omega) (by
            rw [Nat.toDigits_of_base_le (by omega) hge]
            simp)
        show [(n % 10).digitChar].foldlM NumberState.step .int = _
        rw [List.foldlM_cons]
        show (if (n % 10).digitChar.isDigit then some NumberState.int else _).bind _ = _
        rw [if_pos hdigit]
        rfl

/-- What `%d` prints is a JSON number. -/
theorem valid_itoa (n : Int) :
    (NumberState.read (itoa n)).any NumberState.accepting = true := by
  have hdigits : ∀ k : Nat, ((Nat.toDigits 10 k).foldlM NumberState.step .minus).any
      NumberState.accepting = true := by
    intro k
    rw [foldlM_toDigits]
    split <;> rfl
  cases n with
  | negSucc n => exact hdigits (n + 1)
  | ofNat n =>
      have hread : NumberState.read (Nat.toDigits 10 n) =
          (Nat.toDigits 10 n).foldlM NumberState.step .minus := by
        cases htext : Nat.toDigits 10 n with
        | nil => exact absurd htext Nat.toDigits_ne_nil
        | cons c rest =>
            have hdigit : c.isDigit = true :=
              Nat.isDigit_of_mem_toDigits (b := 10) (n := n) (by omega) (by omega) (by
                rw [htext]
                exact List.mem_cons_self)
            have hsign : c ≠ '-' := by
              rintro rfl
              exact absurd hdigit (by decide)
            rw [List.foldlM_cons]
            show (NumberState.start c).bind _ = _
            rw [NumberState.start, if_neg hsign]
            rfl
      show (NumberState.read (Nat.toDigits 10 n)).any _ = true
      rw [hread]
      exact hdigits n

/-- An integer. -/
def Number.ofInt (n : Int) : Number := ⟨itoa n, valid_itoa n⟩

/-! ## Values -/

inductive Value where
  | null
  | bool (b : Bool)
  | number (n : Number)
  | string (text : GoString)
  | array (items : List Value)
  | object (members : List (GoString × Value))

/-! ## Strings -/

def hexDigit (n : Nat) : Char :=
  if n < 10 then Char.ofNat ('0'.toNat + n) else Char.ofNat ('a'.toNat + (n - 10))

theorem unhex_hexDigit {n : Nat} (h : n < 16) : unhex (hexDigit n) = some n := by
  have hall : (List.range 16).all (fun n => decide (unhex (hexDigit n) = some n)) = true := by
    decide
  exact of_decide_eq_true (List.all_eq_true.mp hall n (List.mem_range.mpr h))

/-- The escape `\uXXXX`. -/
def unicodeEscape (n : Nat) : GoString :=
  ['\\', 'u', hexDigit (n / 4096 % 16), hexDigit (n / 256 % 16), hexDigit (n / 16 % 16),
    hexDigit (n % 16)]

/-- The characters that have to be written as a `\u` escape; from Go 1.22 on `\b` and `\f`
have short escapes (`short`). -/
def NeedsEscape (c : Char) : Prop :=
  c < ' ' ∨ c = '<' ∨ c = '>' ∨ c = '&' ∨ c = '\u2028' ∨ c = '\u2029'

instance (c : Char) : Decidable (NeedsEscape c) := inferInstanceAs (Decidable (_ ∨ _))

/-- One character of a string, as `json.Marshal` writes it. -/
def escapeChar (short : Bool) (c : Char) : GoString :=
  if c = '"' ∨ c = '\\' then ['\\', c]
  else if c = '\n' then ['\\', 'n']
  else if c = '\r' then ['\\', 'r']
  else if c = '\t' then ['\\', 't']
  else if short = true ∧ c = '\x08' then ['\\', 'b']
  else if short = true ∧ c = '\x0c' then ['\\', 'f']
  else if NeedsEscape c then unicodeEscape c.toNat
  else [c]

def quote (short : Bool) (text : GoString) : GoString :=
  '"' :: text.flatMap (escapeChar short) ++ ['"']

/-! ## Texts of values -/

mutual

/-- `json.Marshal`. -/
def Value.print (short : Bool) : Value → GoString
  | .null => "null"
  | .bool true => "true"
  | .bool false => "false"
  | .number n => n.literal
  | .string text => quote short text
  | .array [] => "[]"
  | .array (item :: items) => '[' :: item.print short ++ printItems short items
  | .object [] => "\x7b\x7d"
  | .object ((key, value) :: members) =>
      '\x7b' :: quote short key ++ ':' :: value.print short ++ printMembers short members

/-- The items behind the first one. -/
def printItems (short : Bool) : List Value → GoString
  | [] => "]"
  | item :: items => ',' :: item.print short ++ printItems short items

/-- The members behind the first one. -/
def printMembers (short : Bool) : List (GoString × Value) → GoString
  | [] => "\x7d"
  | (key, value) :: members =>
      ',' :: quote short key ++ ':' :: value.print short ++ printMembers short members

end

mutual

/-- How deep arrays and objects are nested. -/
def Value.depth : Value → Nat
  | .null | .bool _ | .number _ | .string _ => 0
  | .array items => itemsDepth items + 1
  | .object members => membersDepth members + 1

def itemsDepth : List Value → Nat
  | [] => 0
  | item :: items => max item.depth (itemsDepth items)

def membersDepth : List (GoString × Value) → Nat
  | [] => 0
  | (_, value) :: members => max value.depth (membersDepth members)

end

end Json
