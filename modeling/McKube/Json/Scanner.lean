import McKube.Json.Value

/-!
# Reading JSON

The scanner of `encoding/json` is a pushdown automaton that takes one character at a time.
Here its stack holds the arrays and objects around the current place, with what they have
so far, so that the automaton builds the value while it checks the text.

* `parse`: the whole text is one value (`json.Unmarshal`).
* `firstValue`: the first value of a stream (`Decoder.Decode`).
* `run_print`: the automaton reads back what `print` writes.
-/

namespace Json

open GoLib

/-! ## The automaton -/

/-- An array or object that is open around the current place; items and members are kept
with the last one first. -/
inductive Frame where
  | array (items : List Value)
  | object (members : List (GoString × Value)) (key : GoString)

/-- The pieces of a string: a character, or a code unit from a `\u` escape. -/
inductive Piece where
  | char (c : Char)
  | unit (n : Nat)
  deriving DecidableEq

/-- What a string is for. -/
inductive Role where
  | value
  | key (members : List (GoString × Value))

inductive State where
  | value (K : List Frame)
  | firstItem (K : List Frame)
  | afterItem (items : List Value) (K : List Frame)
  | firstKey (K : List Frame)
  | nextKey (members : List (GoString × Value)) (K : List Frame)
  | afterKey (members : List (GoString × Value)) (key : GoString) (K : List Frame)
  | afterMember (members : List (GoString × Value)) (K : List Frame)
  | string (role : Role) (read : List Piece) (K : List Frame)
  | escape (role : Role) (read : List Piece) (K : List Frame)
  | hex (role : Role) (read : List Piece) (left n : Nat) (K : List Frame)
  | number (st : NumberState) (read : GoString) (h : NumberState.read read.reverse = some st)
      (K : List Frame)
  | word (left : GoString) (v : Value) (K : List Frame)
  | done (v : Value)

def isSpace (c : Char) : Bool := c = ' ' ∨ c = '\t' ∨ c = '\r' ∨ c = '\n'

/-- `maxNestingDepth` -/
def maxDepth : Nat := 10000

/-- A value is complete. -/
def complete (v : Value) : List Frame → State
  | [] => .done v
  | .array items :: K => .afterItem (v :: items) K
  | .object members key :: K => .afterMember ((key, v) :: members) K

/-! ## Strings -/

def isHigh (n : Nat) : Bool := 0xd800 ≤ n ∧ n < 0xdc00

def isLow (n : Nat) : Bool := 0xdc00 ≤ n ∧ n < 0xe000

/-- A code unit by itself; one half of a pair becomes the replacement character. -/
def single (n : Nat) : Char := if isHigh n ∨ isLow n then '\ufffd' else Char.ofNat n

/-- The text of a string: two code units that are a surrogate pair are one character. -/
def unquote : List Piece → GoString
  | [] => []
  | .char c :: rest => c :: unquote rest
  | .unit n :: .unit m :: rest =>
      if isHigh n ∧ isLow m then
        Char.ofNat ((n - 0xd800) * 1024 + (m - 0xdc00) + 0x10000) :: unquote rest
      else
        single n :: unquote (.unit m :: rest)
  | .unit n :: rest => single n :: unquote rest

/-- The end of a string. -/
def closeString (role : Role) (read : List Piece) (K : List Frame) : State :=
  match role with
  | .value => complete (.string (unquote read.reverse)) K
  | .key members => .afterKey members (unquote read.reverse) K

/-- The escapes of one letter. -/
def shortEscape (c : Char) : Option Char :=
  match c with
  | 'b' => some '\x08'
  | 'f' => some '\x0c'
  | 'n' => some '\n'
  | 'r' => some '\r'
  | 't' => some '\t'
  | '\\' => some '\\'
  | '/' => some '/'
  | '"' => some '"'
  | _ => none

/-! ## Steps -/

/-- `stateBeginValue`, behind the white space. -/
def beginValue (c : Char) (K : List Frame) : Option State :=
  if c = '\x7b' then if K.length < maxDepth then some (.firstKey K) else none
  else if c = '[' then if K.length < maxDepth then some (.firstItem K) else none
  else if c = '"' then some (.string .value [] K)
  else if c = 't' then some (.word "rue" (.bool true) K)
  else if c = 'f' then some (.word "alse" (.bool false) K)
  else if c = 'n' then some (.word "ull" .null K)
  else
    match h : NumberState.start c with
    | some st => some (.number st [c] ((NumberState.read_singleton c).trans h) K)
    | none => none

/-- `stateEndValue`. -/
def endValue : State → Char → Option State
  | .afterItem items K, c =>
      if isSpace c then some (.afterItem items K)
      else if c = ',' then some (.value (.array items :: K))
      else if c = ']' then some (complete (.array items.reverse) K)
      else none
  | .afterMember members K, c =>
      if isSpace c then some (.afterMember members K)
      else if c = ',' then some (.nextKey members K)
      else if c = '\x7d' then some (complete (.object members.reverse) K)
      else none
  | .done v, c => if isSpace c then some (.done v) else none
  | _, _ => none

/-- A number is read as far as it goes; the character behind it belongs to what follows. -/
def numberStep (st : NumberState) (read : GoString)
    (h : NumberState.read read.reverse = some st) (K : List Frame) (c : Char) : Option State :=
  match hstep : st.step c with
  | some st' => some (.number st' (c :: read)
      (by rw [List.reverse_cons, NumberState.read_concat h, hstep]) K)
  | none =>
      if haccepting : st.accepting = true then
        endValue (complete (.number ⟨read.reverse, by rw [h]; exact haccepting⟩) K) c
      else
        none

/-- One character of the text. -/
def step : State → Char → Option State
  | .value K, c => if isSpace c then some (.value K) else beginValue c K
  | .firstItem K, c =>
      if isSpace c then some (.firstItem K)
      else if c = ']' then some (complete (.array []) K)
      else beginValue c (.array [] :: K)
  | .firstKey K, c =>
      if isSpace c then some (.firstKey K)
      else if c = '\x7d' then some (complete (.object []) K)
      else if c = '"' then some (.string (.key []) [] K)
      else none
  | .nextKey members K, c =>
      if isSpace c then some (.nextKey members K)
      else if c = '"' then some (.string (.key members) [] K)
      else none
  | .afterKey members key K, c =>
      if isSpace c then some (.afterKey members key K)
      else if c = ':' then some (.value (.object members key :: K))
      else none
  | .string role read K, c =>
      if c = '"' then some (closeString role read K)
      else if c = '\\' then some (.escape role read K)
      else if c < ' ' then none
      else some (.string role (.char c :: read) K)
  | .escape role read K, c =>
      if c = 'u' then some (.hex role read 3 0 K)
      else (shortEscape c).map fun d => .string role (.char d :: read) K
  | .hex role read left n K, c =>
      (unhex c).map fun d =>
        match left with
        | 0 => .string role (.unit (16 * n + d) :: read) K
        | left + 1 => .hex role read left (16 * n + d) K
  | .number st read h K, c => numberStep st read h K c
  | .word left v K, c =>
      match left with
      | [] => none
      | [d] => if c = d then some (complete v K) else none
      | d :: e :: rest => if c = d then some (.word (e :: rest) v K) else none
  | s, c => endValue s c

def run (s : State) (text : GoString) : Option State := text.foldlM step s

/-- The value of a text that ends here. -/
def State.finish : State → Option Value
  | .done v => some v
  | .number st read h [] =>
      if haccepting : st.accepting = true then
        some (.number ⟨read.reverse, by rw [h]; exact haccepting⟩)
      else
        none
  | _ => none

/-- The value of a text (`json.Unmarshal`). -/
def parse (text : GoString) : Option Value := (run (.value []) text).bind State.finish

/-- The first value of a text, whatever stands behind it (`Decoder.Decode`). -/
def firstFrom : State → GoString → Option Value
  | .done v, _ => some v
  | s, [] => s.finish
  | .number st read h [], c :: rest =>
      match st.step c with
      | some _ => (step (.number st read h []) c).bind fun s => firstFrom s rest
      | none => (State.number st read h []).finish
  | s, c :: rest => (step s c).bind fun s => firstFrom s rest

def firstValue (text : GoString) : Option Value := firstFrom (.value []) text

/-! ## Runs -/

@[simp] theorem run_nil (s : State) : run s [] = some s := rfl

theorem run_cons (s : State) (c : Char) (text : GoString) :
    run s (c :: text) = (step s c).bind fun s' => run s' text := by
  unfold run
  rw [List.foldlM_cons]
  cases step s c <;> rfl

theorem run_append (s : State) (text text' : GoString) :
    run s (text ++ text') = (run s text).bind fun s' => run s' text' := by
  unfold run
  rw [List.foldlM_append]
  cases List.foldlM step s text <;> rfl

theorem run_cons_of_step {s s' : State} {c : Char} {text : GoString} (h : step s c = some s') :
    run s (c :: text) = run s' text := by
  rw [run_cons, h, Option.bind_some]

theorem run_append_of_run {s s' : State} {text text' : GoString} (h : run s text = some s') :
    run s (text ++ text') = run s' text' := by
  rw [run_append, h, Option.bind_some]

/-! ## Strings that `print` writes -/

section Strings

variable (short : Bool) (role : Role) (read : List Piece) (K : List Frame)

theorem run_shortEscape {c d : Char} (h : shortEscape c = some d) (hu : c ≠ 'u') :
    run (.string role read K) ['\\', c] = some (.string role (.char d :: read) K) := by
  have hslash : step (.string role read K) '\\' = some (.escape role read K) := rfl
  have hstep : step (.escape role read K) c = some (.string role (.char d :: read) K) := by
    show (if c = 'u' then some (State.hex role read 3 0 K) else
      (shortEscape c).map fun d => State.string role (.char d :: read) K) = _
    rw [if_neg hu, h, Option.map_some]
  rw [run_cons_of_step hslash, run_cons_of_step hstep, run_nil]

theorem run_unicodeEscape {n : Nat} (hn : n < 65536) :
    run (.string role read K) (unicodeEscape n) =
      some (.string role (.unit n :: read) K) := by
  have hdigit : ∀ left m d, d < 16 → step (.hex role read (left + 1) m K) (hexDigit d) =
      some (.hex role read left (16 * m + d) K) := by
    intro left m d hd
    show (unhex (hexDigit d)).map _ = _
    rw [unhex_hexDigit hd]
    rfl
  have hlast : ∀ m d, d < 16 → step (.hex role read 0 m K) (hexDigit d) =
      some (.string role (.unit (16 * m + d) :: read) K) := by
    intro m d hd
    show (unhex (hexDigit d)).map _ = _
    rw [unhex_hexDigit hd]
    rfl
  have hslash : step (.string role read K) '\\' = some (.escape role read K) := rfl
  have hu : step (.escape role read K) 'u' = some (.hex role read 3 0 K) := rfl
  unfold unicodeEscape
  rw [run_cons_of_step hslash, run_cons_of_step hu,
    run_cons_of_step (hdigit 2 _ _ (Nat.mod_lt _ (by omega))),
    run_cons_of_step (hdigit 1 _ _ (Nat.mod_lt _ (by omega))),
    run_cons_of_step (hdigit 0 _ _ (Nat.mod_lt _ (by omega))),
    run_cons_of_step (hlast _ _ (Nat.mod_lt _ (by omega))), run_nil]
  have hvalue : 16 * (16 * (16 * (16 * 0 + n / 4096 % 16) + n / 256 % 16) + n / 16 % 16) + n % 16 =
      n := by omega
  rw [hvalue]

theorem toNat_lt_of_needsEscape {c : Char} (h : NeedsEscape c) : c.toNat < 65536 := by
  rcases h with hlt | rfl | rfl | rfl | rfl | rfl
  · have hsmall : c.toNat < 32 := hlt
    omega
  all_goals decide

/-- How a character is written: with an escape of one letter, with its code, or as it is. -/
theorem escapeChar_cases (c : Char) :
    (∃ d, shortEscape d = some c ∧ d ≠ 'u' ∧ escapeChar short c = ['\\', d]) ∨
      (NeedsEscape c ∧ escapeChar short c = unicodeEscape c.toNat) ∨
      (c ≠ '"' ∧ c ≠ '\\' ∧ ¬ c < ' ' ∧ escapeChar short c = [c]) := by
  unfold escapeChar
  split_ifs with hquote hn hr ht hb hf hneeds
  · rcases hquote with rfl | rfl
    · exact Or.inl ⟨'"', rfl, by decide, rfl⟩
    · exact Or.inl ⟨'\\', rfl, by decide, rfl⟩
  · exact Or.inl ⟨'n', by rw [hn]; rfl, by decide, rfl⟩
  · exact Or.inl ⟨'r', by rw [hr]; rfl, by decide, rfl⟩
  · exact Or.inl ⟨'t', by rw [ht]; rfl, by decide, rfl⟩
  · exact Or.inl ⟨'b', by rw [hb.2]; rfl, by decide, rfl⟩
  · exact Or.inl ⟨'f', by rw [hf.2]; rfl, by decide, rfl⟩
  · exact Or.inr (Or.inl ⟨hneeds, rfl⟩)
  · rw [not_or] at hquote
    exact Or.inr (Or.inr ⟨hquote.1, hquote.2, fun hlt => hneeds (Or.inl hlt), rfl⟩)

/-- No code unit of a character is one half of a pair. -/
theorem unquote_unit_cons (c : Char) (rest : List Piece) :
    unquote (.unit c.toNat :: rest) = c :: unquote rest := by
  have hvalid : c.toNat < 0xd800 ∨ 0xdfff < c.toNat ∧ c.toNat < 0x110000 := c.valid
  have hhigh : isHigh c.toNat = false := by
    rw [isHigh, decide_eq_false_iff_not]
    omega
  have hlow : isLow c.toNat = false := by
    rw [isLow, decide_eq_false_iff_not]
    omega
  have hsingle : single c.toNat = c := by
    unfold single
    rw [if_neg (by simp [hhigh, hlow]), Char.ofNat_toNat]
  rcases rest with _ | ⟨d | m, rest⟩
  · show single c.toNat :: [] = _
    rw [hsingle]
    rfl
  · show single c.toNat :: unquote (.char d :: rest) = _
    rw [hsingle]
  · rw [unquote, if_neg (by simp [hhigh]), hsingle]

/-- One character that has been written is read as one piece. -/
theorem run_escapeChar (c : Char) : ∃ p,
    run (.string role read K) (escapeChar short c) = some (.string role (p :: read) K) ∧
      ∀ rest, unquote (p :: rest) = c :: unquote rest := by
  rcases escapeChar_cases short c with ⟨d, hd, hu, htext⟩ | ⟨hneeds, htext⟩ |
    ⟨hquote, hslash, hspace, htext⟩
  · rw [htext]
    exact ⟨.char c, run_shortEscape role read K hd hu, fun _ => rfl⟩
  · rw [htext]
    exact ⟨.unit c.toNat, run_unicodeEscape role read K (toNat_lt_of_needsEscape hneeds),
      unquote_unit_cons c⟩
  · rw [htext]
    refine ⟨.char c, run_cons_of_step ?_, fun _ => rfl⟩
    show (if c = '"' then some (closeString role read K)
      else if c = '\\' then some (.escape role read K)
      else if c < ' ' then none
      else some (.string role (.char c :: read) K)) = _
    rw [if_neg hquote, if_neg hslash, if_neg hspace]

theorem run_flatMap_escapeChar (text : GoString) : ∃ pieces,
    run (.string role read K) (text.flatMap (escapeChar short)) =
        some (.string role (pieces.reverse ++ read) K) ∧ unquote pieces = text := by
  induction text generalizing read with
  | nil => exact ⟨[], rfl, rfl⟩
  | cons c text ih =>
      obtain ⟨p, hp, hunquote⟩ := run_escapeChar short role read K c
      obtain ⟨pieces, hpieces, htext⟩ := ih (p :: read)
      refine ⟨p :: pieces, ?_, by rw [hunquote, htext]⟩
      rw [List.flatMap_cons, run_append_of_run hp, hpieces, List.reverse_cons, List.append_assoc]
      rfl

/-- A string that has been written is read back. -/
theorem run_quoted (text rest : GoString) :
    run (.string role [] K) (text.flatMap (escapeChar short) ++ '"' :: rest) =
      run (match role with
        | .value => complete (.string text) K
        | .key members => .afterKey members text K) rest := by
  obtain ⟨pieces, hpieces, htext⟩ := run_flatMap_escapeChar short role [] K text
  have hclose : step (.string role pieces.reverse K) '"' =
      some (closeString role pieces.reverse K) := rfl
  rw [run_append_of_run hpieces, List.append_nil, run_cons_of_step hclose]
  unfold closeString
  rw [List.reverse_reverse, htext]

end Strings

/-! ## Numbers and words -/

theorem run_number {st st' : NumberState} {read rest : GoString}
    (h : NumberState.read read.reverse = some st) (K : List Frame)
    (hrest : rest.foldlM NumberState.step st = some st') :
    ∃ h', run (.number st read h K) rest = some (.number st' (rest.reverse ++ read) h' K) := by
  induction rest generalizing st read with
  | nil =>
      obtain rfl : st = st' := Option.some.inj hrest
      exact ⟨h, rfl⟩
  | cons c rest ih =>
      rw [List.foldlM_cons] at hrest
      cases hstep : st.step c with
      | none =>
          rw [hstep] at hrest
          cases hrest
      | some next =>
          rw [hstep] at hrest
          have hread : NumberState.read (c :: read).reverse = some next := by
            rw [List.reverse_cons, NumberState.read_concat h, hstep]
          obtain ⟨h', hrun⟩ := ih hread hrest
          have hone : step (.number st read h K) c = some (.number next (c :: read) hread K) := by
            show numberStep st read h K c = _
            unfold numberStep
            split
            · next st' hst' =>
                obtain rfl : next = st' := Option.some.inj (hstep.symm.trans hst')
                rfl
            · next hnone =>
                rw [hstep] at hnone
                cases hnone
          have hread' : (c :: rest).reverse ++ read = rest.reverse ++ c :: read := by simp
          refine ⟨by rw [hread']; exact h', ?_⟩
          rw [run_cons_of_step hone, hrun]
          congr 2
          simp

theorem beginValue_number {c : Char} {st : NumberState} (h : NumberState.start c = some st)
    (K : List Frame) :
    beginValue c K = some (.number st [c] ((NumberState.read_singleton c).trans h) K) := by
  have hother : ∀ d, NumberState.start d = none → c ≠ d := by
    rintro d hd rfl
    rw [h] at hd
    cases hd
  unfold beginValue
  rw [if_neg (hother _ (by decide)), if_neg (hother _ (by decide)), if_neg (hother _ (by decide)),
    if_neg (hother _ (by decide)), if_neg (hother _ (by decide)), if_neg (hother _ (by decide))]
  split
  · next st' hst' =>
      obtain rfl : st = st' := Option.some.inj (h.symm.trans hst')
      rfl
  · next hnone =>
      rw [h] at hnone
      cases hnone

/-! ## Reading back -/

/-- The value is complete up to the character behind it, which may be needed to see the end of
a number. -/
structure Ends (s : State) (v : Value) (K : List Frame) : Prop where
  next : ∀ c, c = ',' ∨ c = ']' ∨ c = '\x7d' → step s c = endValue (complete v K) c
  last : K = [] → s.finish = some v

theorem step_complete (v : Value) (K : List Frame) (c : Char) :
    step (complete v K) c = endValue (complete v K) c := by
  rcases K with _ | ⟨_ | _, K⟩ <;> rfl

theorem ends_complete (v : Value) (K : List Frame) : Ends (complete v K) v K where
  next := fun c _ => step_complete v K c
  last := by
    rintro rfl
    rfl

theorem ends_number {st : NumberState} {read : GoString}
    (h : NumberState.read read.reverse = some st) (K : List Frame) (n : Number)
    (hn : n.literal = read.reverse) : Ends (.number st read h K) (.number n) K := by
  obtain ⟨literal, hvalid⟩ := n
  obtain rfl : literal = read.reverse := hn
  have haccepting : st.accepting = true := by
    rw [h] at hvalid
    exact hvalid
  constructor
  · intro c hc
    have hnone : st.step c = none := by
      rcases hc with rfl | rfl | rfl <;> cases st <;> rfl
    show numberStep st read h K c = _
    unfold numberStep
    split
    · next st' hst' =>
        rw [hnone] at hst'
        cases hst'
    · rw [dif_pos haccepting]
  · rintro rfl
    show (if haccepting : st.accepting = true then _ else none) = _
    rw [dif_pos haccepting]

/-- A value that has been written begins with a character that neither is white space nor
closes anything. -/
theorem print_eq_cons (short : Bool) (v : Value) : ∃ c rest, v.print short = c :: rest ∧
    isSpace c = false ∧ c ≠ ']' := by
  cases v with
  | null => exact ⟨_, _, rfl, by decide, by decide⟩
  | bool b => cases b <;> exact ⟨_, _, rfl, by decide, by decide⟩
  | number n =>
      obtain ⟨literal, hvalid⟩ := n
      cases literal with
      | nil => cases hvalid
      | cons c rest =>
          refine ⟨c, rest, rfl, ?_⟩
          cases hstart : NumberState.start c with
          | none =>
              have hread : NumberState.read (c :: rest) =
                  (NumberState.start c).bind fun st => rest.foldlM NumberState.step st := rfl
              rw [hread, hstart] at hvalid
              cases hvalid
          | some st =>
              have hother : ∀ d, NumberState.start d = none → c ≠ d := by
                rintro d hd rfl
                rw [hstart] at hd
                cases hd
              refine ⟨?_, hother _ (by decide)⟩
              unfold isSpace
              rw [decide_eq_false_iff_not, not_or, not_or, not_or]
              exact ⟨hother _ (by decide), hother _ (by decide), hother _ (by decide),
                hother _ (by decide)⟩
  | string text => exact ⟨_, _, rfl, by decide, by decide⟩
  | array items => cases items <;> exact ⟨_, _, rfl, by decide, by decide⟩
  | object members =>
      rcases members with _ | ⟨⟨key, value⟩, members⟩ <;>
        exact ⟨_, _, rfl, by decide, by decide⟩

theorem run_firstItem_print (short : Bool) (v : Value) (K : List Frame) :
    run (.firstItem K) (v.print short) = run (.value (.array [] :: K)) (v.print short) := by
  obtain ⟨c, rest, htext, hspace, hclose⟩ := print_eq_cons short v
  rw [htext, run_cons, run_cons]
  have hfirst : step (.firstItem K) c = beginValue c (.array [] :: K) := by
    show (if isSpace c then some (State.firstItem K)
      else if c = ']' then some (complete (.array []) K) else beginValue c (.array [] :: K)) = _
    rw [if_neg (by simp [hspace]), if_neg hclose]
  have hvalue : step (.value (.array [] :: K)) c = beginValue c (.array [] :: K) := by
    show (if isSpace c then some (State.value (.array [] :: K))
      else beginValue c (.array [] :: K)) = _
    rw [if_neg (by simp [hspace])]
  rw [hfirst, hvalue]

theorem exists_ends_number (n : Number) (K : List Frame) :
    ∃ s, run (.value K) n.literal = some s ∧ Ends s (.number n) K := by
  obtain ⟨c, rest, htext, hspace, -⟩ := print_eq_cons false (.number n)
  have hliteral : n.literal = c :: rest := htext
  have hvalid := n.valid
  have hread : NumberState.read (c :: rest) =
      (NumberState.start c).bind fun st => rest.foldlM NumberState.step st := rfl
  rw [hliteral, hread] at hvalid
  cases hstart : NumberState.start c with
  | none =>
      rw [hstart] at hvalid
      cases hvalid
  | some st =>
      rw [hstart, Option.bind_some] at hvalid
      cases hrest : rest.foldlM NumberState.step st with
      | none =>
          rw [hrest] at hvalid
          cases hvalid
      | some st' =>
          have hone : NumberState.read [c].reverse = some st :=
            (NumberState.read_singleton c).trans hstart
          obtain ⟨h', hrun⟩ := run_number hone K hrest
          have hstep : step (.value K) c = some (.number st [c] hone K) := by
            show (if isSpace c then some (State.value K) else beginValue c K) = _
            rw [if_neg (by simp [hspace]), beginValue_number hstart]
          refine ⟨_, ?_, ends_number h' K n ?_⟩
          · rw [hliteral, run_cons_of_step hstep]
            exact hrun
          · rw [hliteral]
            simp

theorem step_bracket {K : List Frame} (h : K.length < maxDepth) :
    step (.value K) '[' = some (.firstItem K) := if_pos h

theorem step_brace {K : List Frame} (h : K.length < maxDepth) :
    step (.value K) '\x7b' = some (.firstKey K) := if_pos h

/-- What stands behind a complete value, character by character. -/
theorem Ends.step_of {s s' : State} {v : Value} {K : List Frame} (h : Ends s v K) {c : Char}
    (hc : c = ',' ∨ c = ']' ∨ c = '\x7d') (hstep : endValue (complete v K) c = some s') :
    step s c = some s' := (h.next c hc).trans hstep

mutual

theorem exists_ends_print (short : Bool) : ∀ (v : Value) (K : List Frame),
    K.length + v.depth ≤ maxDepth → ∃ s, run (.value K) (v.print short) = some s ∧ Ends s v K
  | .null, K, _ => ⟨_, rfl, ends_complete .null K⟩
  | .bool true, K, _ => ⟨_, rfl, ends_complete (.bool true) K⟩
  | .bool false, K, _ => ⟨_, rfl, ends_complete (.bool false) K⟩
  | .number n, K, _ => exists_ends_number n K
  | .string text, K, _ => ⟨_, run_quoted short .value K text [], ends_complete _ K⟩
  | .array [], K, h => by
      have hdepth : K.length + 1 ≤ maxDepth := h
      refine ⟨_, ?_, ends_complete (.array []) K⟩
      show run (.value K) ['[', ']'] = _
      rw [run_cons_of_step (step_bracket (by omega))]
      rfl
  | .array (item :: items), K, h => by
      have hdepth : K.length + (max item.depth (itemsDepth items) + 1) ≤ maxDepth := h
      have hitem : (Frame.array [] :: K).length + item.depth ≤ maxDepth := by
        rw [List.length_cons]
        omega
      obtain ⟨s, hrun, hends⟩ := exists_ends_print short item (.array [] :: K) hitem
      refine ⟨_, ?_, ends_complete (.array (item :: items)) K⟩
      show run (.value K) ('[' :: item.print short ++ printItems short items) = _
      rw [List.cons_append, run_cons_of_step (step_bracket (by omega)), run_append,
        run_firstItem_print, hrun, Option.bind_some]
      exact run_printItems short items [] K (by omega) s item hends
  | .object [], K, h => by
      have hdepth : K.length + 1 ≤ maxDepth := h
      refine ⟨_, ?_, ends_complete (.object []) K⟩
      show run (.value K) ['\x7b', '\x7d'] = _
      rw [run_cons_of_step (step_brace (by omega))]
      rfl
  | .object ((key, value) :: members), K, h => by
      have hdepth : K.length + (max value.depth (membersDepth members) + 1) ≤ maxDepth := h
      have hvalue : (Frame.object [] key :: K).length + value.depth ≤ maxDepth := by
        rw [List.length_cons]
        omega
      obtain ⟨s, hrun, hends⟩ := exists_ends_print short value (.object [] key :: K) hvalue
      refine ⟨_, ?_, ends_complete (.object ((key, value) :: members)) K⟩
      have hquote : step (.firstKey K) '"' = some (.string (.key []) [] K) := rfl
      have hcolon : step (.afterKey [] key K) ':' = some (.value (.object [] key :: K)) := rfl
      show run (.value K) ('\x7b' :: ('"' :: key.flatMap (escapeChar short) ++ ['"']) ++
        ':' :: value.print short ++ printMembers short members) = _
      simp only [List.cons_append, List.append_assoc, List.nil_append]
      rw [run_cons_of_step (step_brace (by omega)), run_cons_of_step hquote, run_quoted,
        run_cons_of_step hcolon, run_append_of_run hrun]
      exact run_printMembers short members [] key K (by omega) s value hends

theorem run_printItems (short : Bool) : ∀ (items : List Value) (read : List Value)
    (K : List Frame), K.length + 1 + itemsDepth items ≤ maxDepth → ∀ (s : State) (v : Value),
      Ends s v (.array read :: K) →
        run s (printItems short items) = some (complete (.array (read.reverse ++ v :: items)) K)
  | [], read, K, _, s, v, hs => by
      have hclose : endValue (complete v (.array read :: K)) ']' =
          some (complete (.array (v :: read).reverse) K) := rfl
      show run s [']'] = _
      rw [run_cons_of_step (hs.step_of (by simp) hclose), run_nil, List.reverse_cons]
  | item :: items, read, K, h, s, v, hs => by
      have hdepth : K.length + 1 + max item.depth (itemsDepth items) ≤ maxDepth := h
      have hitem : (Frame.array (v :: read) :: K).length + item.depth ≤ maxDepth := by
        rw [List.length_cons]
        omega
      obtain ⟨s', hrun, hends⟩ := exists_ends_print short item (.array (v :: read) :: K) hitem
      have hcomma : endValue (complete v (.array read :: K)) ',' =
          some (.value (.array (v :: read) :: K)) := rfl
      show run s (',' :: item.print short ++ printItems short items) = _
      rw [List.cons_append, run_cons_of_step (hs.step_of (by simp) hcomma),
        run_append_of_run hrun,
        run_printItems short items (v :: read) K (by omega) s' item hends, List.reverse_cons,
        List.append_assoc]
      rfl

theorem run_printMembers (short : Bool) : ∀ (members read : List (GoString × Value))
    (key : GoString) (K : List Frame), K.length + 1 + membersDepth members ≤ maxDepth →
      ∀ (s : State) (v : Value), Ends s v (.object read key :: K) →
        run s (printMembers short members) =
          some (complete (.object (read.reverse ++ (key, v) :: members)) K)
  | [], read, key, K, _, s, v, hs => by
      have hclose : endValue (complete v (.object read key :: K)) '\x7d' =
          some (complete (.object ((key, v) :: read).reverse) K) := rfl
      show run s ['\x7d'] = _
      rw [run_cons_of_step (hs.step_of (by simp) hclose), run_nil, List.reverse_cons]
  | (key', value) :: members, read, key, K, h, s, v, hs => by
      have hdepth : K.length + 1 + max value.depth (membersDepth members) ≤ maxDepth := h
      have hvalue : (Frame.object ((key, v) :: read) key' :: K).length + value.depth ≤
          maxDepth := by
        rw [List.length_cons]
        omega
      obtain ⟨s', hrun, hends⟩ :=
        exists_ends_print short value (.object ((key, v) :: read) key' :: K) hvalue
      have hcomma : endValue (complete v (.object read key :: K)) ',' =
          some (.nextKey ((key, v) :: read) K) := rfl
      have hquote : step (.nextKey ((key, v) :: read) K) '"' =
          some (.string (.key ((key, v) :: read)) [] K) := rfl
      have hcolon : step (.afterKey ((key, v) :: read) key' K) ':' =
          some (.value (.object ((key, v) :: read) key' :: K)) := rfl
      show run s (',' :: ('"' :: key'.flatMap (escapeChar short) ++ ['"']) ++
        ':' :: value.print short ++ printMembers short members) = _
      simp only [List.cons_append, List.append_assoc, List.nil_append]
      rw [run_cons_of_step (hs.step_of (by simp) hcomma), run_cons_of_step hquote, run_quoted,
        run_cons_of_step hcolon, run_append_of_run hrun,
        run_printMembers short members ((key, v) :: read) key' K (by omega) s' value hends,
        List.reverse_cons, List.append_assoc]
      rfl

end

/-- What has been written is read back. -/
theorem parse_print (short : Bool) {v : Value} (h : v.depth ≤ maxDepth) :
    parse (v.print short) = some v := by
  obtain ⟨s, hrun, hends⟩ := exists_ends_print short v [] (by simpa using h)
  unfold parse
  rw [hrun, Option.bind_some, hends.last rfl]

/-! ## The first value of a stream -/

theorem run_done {v : Value} {s : State} {text : GoString} (h : run (.done v) text = some s) :
    s = .done v := by
  induction text with
  | nil => exact (Option.some.inj h).symm
  | cons c text ih =>
      rw [run_cons] at h
      have hstep : step (.done v) c = if isSpace c then some (.done v) else none := rfl
      rw [hstep] at h
      split at h
      · exact ih h
      · cases h

/-- A value that is complete is taken, whatever stands behind it. -/
theorem firstFrom_of_run {s : State} {text : GoString} {v : Value}
    (h : run s text = some (.done v)) (rest : GoString) : firstFrom s (text ++ rest) = some v := by
  induction text generalizing s with
  | nil =>
      obtain rfl : s = .done v := Option.some.inj h
      cases rest <;> rfl
  | cons c text ih =>
      have hnext : (step s c).bind (fun s => firstFrom s (text ++ rest)) = some v := by
        rw [run_cons] at h
        cases hstep : step s c with
        | none =>
            rw [hstep] at h
            cases h
        | some s' =>
            rw [hstep, Option.bind_some] at h
            exact ih h
      rcases s with _ | _ | _ | _ | _ | _ | _ | _ | _ | _ | ⟨st, read, hread, _ | ⟨frame, K⟩⟩ | _ | w
      case number.nil =>
        -- the character behind a number may only be a blank
        show (match st.step c with
          | some _ => (step (.number st read hread []) c).bind fun s => firstFrom s (text ++ rest)
          | none => (State.number st read hread []).finish) = some v
        cases hstep : st.step c with
        | some st' => exact hnext
        | none =>
            rw [run_cons] at h
            have hnumber : step (.number st read hread []) c =
                if haccepting : st.accepting = true then
                  endValue (.done (.number ⟨read.reverse, by rw [hread]; exact haccepting⟩)) c
                else none := by
              show numberStep st read hread [] c = _
              unfold numberStep
              split
              · next hst' =>
                  rw [hstep] at hst'
                  cases hst'
              · rfl
            rw [hnumber] at h
            show (if haccepting : st.accepting = true then
              some (Value.number ⟨read.reverse, by rw [hread]; exact haccepting⟩)
              else none) = some v
            split at h
            · next haccepting =>
                rw [dif_pos haccepting]
                unfold endValue at h
                dsimp only at h
                split at h
                · have hdone := run_done h
                  rw [State.done.injEq] at hdone
                  rw [hdone]
                · cases h
            · cases h
      case done =>
        have hdone := run_done h
        rw [State.done.injEq] at hdone
        rw [hdone]
        rfl
      all_goals exact hnext

theorem finish_eq_some {s : State} {v : Value} (h : s.finish = some v) :
    s = .done v ∨ ∃ n, v = .number n := by
  rcases s with _ | _ | _ | _ | _ | _ | _ | _ | _ | _ | ⟨st, read, hread, _ | ⟨frame, K⟩⟩ | _ | w
  case number.nil =>
    right
    have hfinish : (if haccepting : st.accepting = true then
        some (Value.number ⟨read.reverse, by rw [hread]; exact haccepting⟩) else none) = some v := h
    split at hfinish
    · exact ⟨_, (Option.some.inj hfinish).symm⟩
    · cases hfinish
  case done => exact Or.inl (congrArg State.done (Option.some.inj h))
  all_goals cases h

/-- The decoder of a stream reads back what has been written; a number would need something
behind it. -/
theorem firstValue_print (short : Bool) {v : Value} (h : v.depth ≤ maxDepth)
    (hv : ∀ n, v ≠ .number n) (rest : GoString) :
    firstValue (v.print short ++ rest) = some v := by
  have hparse := parse_print short h
  unfold parse at hparse
  obtain ⟨s, hrun, hfinish⟩ := Option.bind_eq_some_iff.mp hparse
  rcases finish_eq_some hfinish with rfl | ⟨n, rfl⟩
  · exact firstFrom_of_run hrun rest
  · exact absurd rfl (hv n)

example : (parse "[1, -2.5e3, \"a\\u0041\"] ").isSome = true := by decide

example : (parse "[1, 02]").isSome = false := by decide

end Json
