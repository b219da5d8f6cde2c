import McKube.GoLib.Filepath
import McKube.GoLib.Strconv

/-!
# Paths of URLs

The path of a request as the two HTTP servers see it: the part of the URL behind the host, up
to a query or a fragment, and `cleanPath`, by which both servers bring a path into its
canonical form.

* `cleanPath_of_plain`: a path of plain components is canonical.
* `escapedPath_append`: the path of a URL without a query.
* `pathUnescape_of_not_mem`: nothing to decode without a percent sign.
-/

namespace GoLib

namespace url

open filepath (rootPath Plain)

/-- `cleanPath`: the canonical path, with the trailing slash of the request. -/
def cleanPath (p : GoString) : GoString :=
  let p := if hasPrefix p ['/'] then p else '/' :: p
  let np := filepath.clean p
  if p.getLast? = some '/' ∧ np ≠ ['/'] then np ++ ['/'] else np

/-- An escaped text, decoded; `none` if it is escaped badly. -/
def pathUnescape : GoString → Option GoString
  | [] => some []
  | '%' :: a :: b :: rest => do
      let high ← unhex a
      let low ← unhex b
      let decoded ← pathUnescape rest
      pure (Char.ofNat (16 * high + low) :: decoded)
  | '%' :: _ => none
  | c :: rest => (pathUnescape rest).map (c :: ·)

/-- The escaped path of a URL of this host. -/
def escapedPath (host text : GoString) : GoString :=
  (trimPrefix text (("http://" : GoString) ++ host)).takeWhile fun c => c ≠ '?' ∧ c ≠ '#'

theorem pathUnescape_of_not_mem {s : GoString} (h : '%' ∉ s) : pathUnescape s = some s := by
  induction s with
  | nil => rfl
  | cons c s ih =>
      rw [List.mem_cons, not_or] at h
      have hrest := ih h.2
      have hc : c ≠ '%' := fun heq => h.1 heq.symm
      unfold pathUnescape
      split
      · next heq => cases heq
      · next heq =>
          rw [List.cons.injEq] at heq
          exact absurd heq.1 hc
      · next heq =>
          rw [List.cons.injEq] at heq
          exact absurd heq.1 hc
      · next heq =>
          rw [List.cons.injEq] at heq
          obtain ⟨rfl, rfl⟩ := heq
          rw [hrest]
          rfl

theorem trimPrefix_append (pre rest : GoString) : trimPrefix (pre ++ rest) pre = rest := by
  simp [trimPrefix, hasPrefix]

theorem escapedPath_append {host path : GoString} (hquery : '?' ∉ path) (hfragment : '#' ∉ path) :
    escapedPath host (("http://" : GoString) ++ host ++ path) = path := by
  unfold escapedPath
  rw [trimPrefix_append, List.takeWhile_eq_self_iff]
  intro c hc
  rw [decide_eq_true_eq]
  constructor
  · rintro rfl
    exact hquery hc
  · rintro rfl
    exact hfragment hc

theorem cleanPath_of_plain {cs : List GoString} (hcs : cs ≠ []) (hplain : ∀ c ∈ cs, Plain c) :
    cleanPath (rootPath cs) = rootPath cs := by
  have hclean : filepath.clean (rootPath cs) = rootPath cs := by
    rw [filepath.clean_rooted (filepath.hasPrefix_rootPath cs),
      filepath.components_rootPath hplain]
  have hlast : (rootPath cs).getLast? ≠ some '/' := by
    obtain ⟨front, c, rfl⟩ := (List.eq_nil_or_concat cs).resolve_left hcs
    obtain ⟨hne, -, -, hslash⟩ := hplain c (by simp)
    obtain ⟨start, hpath⟩ : ∃ start, rootPath (front ++ [c]) = start ++ c := by
      by_cases hfront : front = []
      · subst hfront
        exact ⟨['/'], by simp [rootPath]⟩
      · exact ⟨rootPath front ++ ['/'], by rw [filepath.rootPath_concat hfront]; simp⟩
    rw [List.concat_eq_append, hpath, List.getLast?_append_of_ne_nil start hne]
    intro hmem
    exact hslash (List.mem_of_getLast? hmem)
  unfold cleanPath
  rw [if_pos (filepath.hasPrefix_rootPath cs)]
  simp only [hclean]
  rw [if_neg fun h => hlast h.1]

end url

end GoLib
