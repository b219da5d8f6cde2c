import McKube.GoLib.File
import McKube.GoLib.Strings
import McKube.Text.Pieces

/-!
# Splitting strings of bytes

`Split` and `Fields` on strings of which the bytes matter, such as paths that need not
be valid UTF-8.  White space is a rune; the bytes of its encoding are found at no place
inside another rune.

* `fields_append_space`: a blank cuts a string into words of the left and of the right.
* `fields_of_clean`, `clean_of_mem_fields`: words are the strings without white space.
* `split_append_sep`: what stands in front of the first separator is a part.
-/

namespace GoLib
namespace bytes

open Text

/-- The bytes of a string of runes, in UTF-8. -/
def encode (s : GoString) : Bytes := s.flatMap String.utf8EncodeChar

/-! ## Splitting at a string -/

def sepWidth (sep s : Bytes) : Nat := if sep.isPrefixOf s then sep.length else 0

/-- `strings.Split` by a separator that is not empty. -/
def split (s sep : Bytes) : List Bytes := pieces (sepWidth sep) s

theorem sepWidth_append (sep rest : Bytes) : sepWidth sep (sep ++ rest) = sep.length := by
  unfold sepWidth
  rw [if_pos (List.isPrefixOf_iff_prefix.mpr (List.prefix_append sep rest))]

theorem sepWidth_eq_zero {sep s : Bytes} (h : ¬ sep <+: s) : sepWidth sep s = 0 := by
  unfold sepWidth
  rw [if_neg (fun hprefix => h (List.isPrefixOf_iff_prefix.mp hprefix))]

theorem split_append_sep {sep s : Bytes} (hne : sep ≠ []) (rest : Bytes)
    (h : CleanBefore (sepWidth sep) s (sep ++ rest)) :
    split (s ++ (sep ++ rest)) sep = s :: split rest sep :=
  pieces_append_sep hne (sepWidth_append sep rest) h

/-! ## White space -/

/-- The runes of `unicode.IsSpace`. -/
def spaces : List Char :=
  ['\t', '\n', '\x0b', '\x0c', '\r', ' ', '\u0085', '\u00a0', '\u1680', '\u2000', '\u2001',
    '\u2002', '\u2003', '\u2004', '\u2005', '\u2006', '\u2007', '\u2008', '\u2009', '\u200a',
    '\u2028', '\u2029', '\u202f', '\u205f', '\u3000']

theorem mem_spaces_iff {c : Char} : c ∈ spaces ↔ isSpace c = true := by
  constructor
  · have hall : spaces.all isSpace = true := by decide
    exact List.all_eq_true.mp hall c
  · intro h
    have hcode : c.toNat ∈ spaces.map Char.toNat := by
      simp only [isSpace, Bool.or_eq_true, Bool.and_eq_true, decide_eq_true_eq, beq_iff_eq] at h
      simp only [spaces, List.map_cons, List.map_nil, List.mem_cons, List.not_mem_nil]
      simp only [Char.reduceToNat]
      omega
    obtain ⟨d, hd, heq⟩ := List.mem_map.mp hcode
    rw [← Char.ofNat_toNat c, ← heq, Char.ofNat_toNat]
    exact hd

def spaceEncodings : List Bytes := spaces.map String.utf8EncodeChar

/-- The length of the white space that a string starts with. -/
def spaceWidth (s : Bytes) : Nat :=
  match spaceEncodings.find? fun encoding => encoding.isPrefixOf s with
  | some encoding => encoding.length
  | none => 0

/-- `strings.Fields`. -/
def fields (s : Bytes) : List Bytes := (pieces spaceWidth s).filter fun word => !word.isEmpty

/-- Only the first byte of the encoding of a white space may be ASCII. -/
theorem exists_lead_of_mem_spaceEncodings {encoding : Bytes} (h : encoding ∈ spaceEncodings) :
    ∃ lead tail, encoding = lead :: tail ∧ ∀ b ∈ tail, 128 ≤ b := by
  have hall : ∀ encoding ∈ spaceEncodings,
      encoding ≠ [] ∧ (encoding.tail.all fun b => 128 ≤ b) = true := by decide
  obtain ⟨hne, htail⟩ := hall encoding h
  obtain ⟨lead, tail, rfl⟩ := List.exists_cons_of_ne_nil hne
  exact ⟨lead, tail, rfl, by simpa using htail⟩

theorem spaceWidth_eq_zero_iff {s : Bytes} :
    spaceWidth s = 0 ↔ ∀ encoding ∈ spaceEncodings, ¬ encoding <+: s := by
  unfold spaceWidth
  cases hfind : spaceEncodings.find? fun encoding => encoding.isPrefixOf s with
  | none =>
      rw [List.find?_eq_none] at hfind
      exact iff_of_true rfl fun encoding hmem hprefix =>
        hfind encoding hmem (List.isPrefixOf_iff_prefix.mpr hprefix)
  | some encoding =>
      have hmem := List.mem_of_find?_eq_some hfind
      have hstart := List.find?_some hfind
      obtain ⟨lead, tail, rfl, -⟩ := exists_lead_of_mem_spaceEncodings hmem
      refine iff_of_false (Nat.succ_ne_zero _) fun h => ?_
      exact h _ hmem (List.isPrefixOf_iff_prefix.mp hstart)

theorem stable_spaceWidth : Stable spaceWidth := by
  intro s rest h
  rw [spaceWidth_eq_zero_iff] at h ⊢
  exact fun encoding hmem hstart => h encoding hmem (hstart.trans (List.prefix_append s rest))

/-- Text that starts with an ASCII byte does not change the white space in front of it. -/
theorem spaceWidth_append {t : Bytes} (hne : t ≠ []) {c : UInt8} (hc : c < 128) (rest : Bytes) :
    spaceWidth (t ++ c :: rest) = spaceWidth t := by
  have hsame : ∀ encoding ∈ spaceEncodings,
      encoding.isPrefixOf (t ++ c :: rest) = encoding.isPrefixOf t := by
    intro encoding hmem
    rw [Bool.eq_iff_iff, List.isPrefixOf_iff_prefix, List.isPrefixOf_iff_prefix]
    constructor
    · intro hstart
      obtain ⟨lead, tail, rfl, htail⟩ := exists_lead_of_mem_spaceEncodings hmem
      rcases List.prefix_or_prefix_of_prefix hstart (List.prefix_append t (c :: rest)) with
        hshort | ⟨more, hlong⟩
      · exact hshort
      · cases more with
        | nil =>
            rw [List.append_nil] at hlong
            rw [hlong]
        | cons d more =>
            -- the byte after `t` would be a later byte of the encoding
            exfalso
            obtain ⟨end', hend⟩ := hstart
            rw [← hlong, List.append_assoc, List.append_cancel_left_eq, List.cons_append,
              List.cons.injEq] at hend
            obtain ⟨e, t, rfl⟩ := List.exists_cons_of_ne_nil hne
            rw [List.cons_append, List.cons.injEq] at hlong
            have hbyte : 128 ≤ d := htail d (by rw [← hlong.2]; simp)
            rw [hend.1] at hbyte
            exact absurd hc (UInt8.not_lt.mpr hbyte)
    · intro hstart
      exact hstart.trans (List.prefix_append t (c :: rest))
  unfold spaceWidth
  rw [← List.head?_filter, ← List.head?_filter, List.filter_congr hsame]

theorem spaceWidth_le {s : Bytes} : spaceWidth s ≤ s.length := by
  unfold spaceWidth
  cases hfind : spaceEncodings.find? fun encoding => encoding.isPrefixOf s with
  | none => exact Nat.zero_le _
  | some encoding =>
      have hstart := List.find?_some hfind
      exact (List.isPrefixOf_iff_prefix.mp hstart).length_le

/-! ## Words -/

/-- No white space starts anywhere in the string. -/
abbrev NoSpace (s : Bytes) : Prop := Clean spaceWidth s

theorem local_spaceWidth (s : Bytes) {c : UInt8} (hc : c < 128) (rest : Bytes) :
    Local spaceWidth s (c :: rest) :=
  fun _ hne _ => ⟨spaceWidth_append hne hc rest, spaceWidth_le⟩

theorem spaceWidth_space (s : Bytes) : spaceWidth (32 :: s) = 1 := by
  simp [spaceWidth, spaceEncodings, spaces, String.utf8EncodeChar]

/-- A blank cuts a string. -/
theorem fields_append_space (s rest : Bytes) :
    fields (s ++ 32 :: rest) = fields s ++ fields rest := by
  unfold fields
  rw [pieces_append_local (local_spaceWidth s (by decide) rest) (spaceWidth_space rest),
    List.filter_append]

theorem fields_of_clean {s : Bytes} (hne : s ≠ []) (h : NoSpace s) : fields s = [s] := by
  unfold fields
  rw [pieces_of_clean h, List.filter_cons_of_pos (by simpa using hne), List.filter_nil]

theorem clean_of_mem_fields {s word : Bytes} (hword : word ∈ fields s) : NoSpace word :=
  clean_of_mem_pieces stable_spaceWidth (List.mem_filter.mp hword).1

/-- A string that does not start with white space has a word. -/
theorem fields_ne_nil {c : UInt8} {s : Bytes} (h : spaceWidth (c :: s) = 0) :
    fields (c :: s) ≠ [] := by
  obtain ⟨first, others, hpieces, hstart⟩ := exists_piecesFrom_eq_cons spaceWidth 0 [c] s
  have hne : first ≠ [] := by
    rintro rfl
    exact absurd (List.prefix_nil.mp hstart) (List.cons_ne_nil c [])
  unfold fields pieces
  rw [piecesFrom_of_width_zero h, List.nil_append, hpieces,
    List.filter_cons_of_pos (by simpa using hne)]
  exact List.cons_ne_nil _ _

/-- A printable ASCII byte other than the blank. -/
def isGraphic (c : UInt8) : Bool := 33 ≤ c && c ≤ 126

theorem spaceWidth_cons_graphic {c : UInt8} (hc : isGraphic c = true) (s : Bytes) :
    spaceWidth (c :: s) = 0 := by
  rw [spaceWidth_eq_zero_iff]
  intro encoding hmem hstart
  have hleads : ∀ encoding ∈ spaceEncodings, encoding.head?.any isGraphic = false := by decide
  obtain ⟨lead, tail, rfl, -⟩ := exists_lead_of_mem_spaceEncodings hmem
  have hlead : isGraphic lead = false := hleads _ hmem
  rw [(List.cons_prefix_cons.mp hstart).1, hc] at hlead
  cases hlead

/-- No white space starts in printable ASCII bytes. -/
theorem cleanBefore_of_graphic {s : Bytes} (h : ∀ c ∈ s, isGraphic c = true) (rest : Bytes) :
    CleanBefore spaceWidth s rest := by
  induction s with
  | nil => exact cleanBefore_nil
  | cons c s ih =>
      exact cleanBefore_cons_iff.mpr ⟨spaceWidth_cons_graphic (h c List.mem_cons_self) _,
        ih fun d hd => h d (List.mem_cons_of_mem c hd)⟩

end bytes
end GoLib
