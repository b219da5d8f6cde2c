import McKube.GoLib.Strings

/-!
# Unix paths

`filepath.Clean` and `filepath.Join` for the separator `/`, and what they do
on rooted paths: a rooted path is determined by its list of components, and
joining a plain name to it appends one component
(`join_rooted`, `components_rootPath`).
-/

namespace GoLib

namespace filepath

/-- One component on the stack of `filepath.Clean`: empty and `.` components
vanish, `..` removes the component before it, and stays only at the start of
a path that is not rooted. -/
def cleanStep (rooted : Bool) (stack : List GoString) (component : GoString) :
    List GoString :=
  if component = [] ∨ component = ['.'] then
    stack
  else if component = ['.', '.'] then
    match stack with
    | [] => if rooted then [] else [component]
    | top :: rest => if top = ['.', '.'] then component :: stack else rest
  else
    component :: stack

/-- The components that `filepath.Clean` keeps, the last one first. -/
def cleanStack (rooted : Bool) (path : GoString) : List GoString :=
  (split path '/').foldl (cleanStep rooted) []

/-- `filepath.Clean`. -/
def clean (path : GoString) : GoString :=
  let rooted := hasPrefix path ['/']
  let body := joinWith '/' (cleanStack rooted path).reverse
  if rooted then '/' :: body else if body = [] then ['.'] else body

/-- `filepath.Join`: leading empty elements are ignored. -/
def join (elems : List GoString) : GoString :=
  match elems.dropWhile List.isEmpty with
  | [] => []
  | rest => clean (joinWith '/' rest)

/-! ## Rooted paths -/

/-- A plain component: `filepath.Clean` keeps it as it is. -/
def Plain (component : GoString) : Prop :=
  component ≠ [] ∧ component ≠ ['.'] ∧ component ≠ ['.', '.'] ∧ '/' ∉ component

instance (component : GoString) : Decidable (Plain component) :=
  inferInstanceAs (Decidable
    (component ≠ [] ∧ component ≠ ['.'] ∧ component ≠ ['.', '.'] ∧ '/' ∉ component))

/-- The rooted path with the given components. -/
def rootPath (components : List GoString) : GoString := '/' :: joinWith '/' components

/-- The components of a rooted path. -/
def components (path : GoString) : List GoString := (cleanStack true path).reverse

theorem cleanStep_plain {component : GoString} (hplain : Plain component) (rooted : Bool)
    (stack : List GoString) : cleanStep rooted stack component = component :: stack := by
  unfold cleanStep
  rw [if_neg (by simp [hplain.1, hplain.2.1]), if_neg hplain.2.2.1]

/-- A rooted stack holds plain components only. -/
theorem plain_of_mem_components {path component : GoString}
    (hmem : component ∈ components path) : Plain component := by
  suffices h : ∀ (parts stack : List GoString), (∀ part ∈ parts, '/' ∉ part) →
      (∀ c ∈ stack, Plain c) → ∀ c ∈ parts.foldl (cleanStep true) stack, Plain c by
    exact h _ [] (fun part hpart => not_mem_of_mem_split hpart) (by simp) component
      (List.mem_reverse.mp hmem)
  intro parts
  induction parts with
  | nil => exact fun stack _ hstack => hstack
  | cons part parts ih =>
      intro stack hparts hstack
      refine ih (cleanStep true stack part)
        (fun p hp => hparts p (List.mem_cons_of_mem _ hp)) ?_
      have hslash : '/' ∉ part := hparts part List.mem_cons_self
      intro c hc
      unfold cleanStep at hc
      split at hc
      · exact hstack c hc
      · rename_i hdot
        push Not at hdot
        split at hc
        · split at hc
          · simp at hc
          · rename_i top rest
            split at hc
            · -- a rooted stack never holds a `..`
              rename_i htop
              exact absurd htop (hstack top List.mem_cons_self).2.2.1
            · exact hstack c (List.mem_cons_of_mem _ hc)
        · rename_i hdotdot
          rcases List.mem_cons.mp hc with rfl | hrest
          · exact ⟨hdot.1, hdot.2, hdotdot, hslash⟩
          · exact hstack c hrest

theorem clean_rooted {path : GoString} (hrooted : hasPrefix path ['/'] = true) :
    clean path = rootPath (components path) := by
  unfold clean
  rw [hrooted]
  rfl

/-- Appending a plain name to a path appends one component. -/
theorem components_append_plain {name : GoString} (path : GoString) (hname : Plain name) :
    components (path ++ '/' :: name) = components path ++ [name] := by
  unfold components cleanStack
  rw [split_append_cons, List.foldl_append, split_eq_singleton hname.2.2.2, List.foldl_cons,
    List.foldl_nil, cleanStep_plain hname, List.reverse_cons]

/-- The components of a path of plain components. -/
theorem components_rootPath {cs : List GoString} (hplain : ∀ c ∈ cs, Plain c) :
    components (rootPath cs) = cs := by
  have hslash : ∀ c ∈ cs, '/' ∉ c := fun c hc => (hplain c hc).2.2.2
  have hfold : ∀ (parts stack : List GoString), (∀ c ∈ parts, Plain c) →
      parts.foldl (cleanStep true) stack = parts.reverse ++ stack := by
    intro parts
    induction parts with
    | nil => exact fun stack _ => rfl
    | cons part parts ih =>
        intro stack hparts
        rw [List.foldl_cons, cleanStep_plain (hparts part List.mem_cons_self),
          ih _ (fun c hc => hparts c (List.mem_cons_of_mem _ hc)), List.reverse_cons,
          List.append_assoc, List.singleton_append]
  cases cs with
  | nil => rfl
  | cons c cs =>
      have hsplit : split (rootPath (c :: cs)) '/' = [] :: c :: cs := by
        have happend := split_append_cons [] (joinWith '/' (c :: cs)) '/'
        rw [split_joinWith hslash (List.cons_ne_nil c cs)] at happend
        exact happend
      unfold components cleanStack
      rw [hsplit, List.foldl_cons]
      have hempty : cleanStep true [] [] = [] := rfl
      rw [hempty, hfold _ _ hplain, List.append_nil, List.reverse_reverse]

theorem join_of_rooted {path : GoString} (hrooted : hasPrefix path ['/'] = true)
    (elems : List GoString) :
    join (path :: elems) = rootPath (components (joinWith '/' (path :: elems))) := by
  cases path with
  | nil => simp [hasPrefix] at hrooted
  | cons c path =>
      have hc : '/' = c := by simpa [hasPrefix] using hrooted
      have hjoin : hasPrefix (joinWith '/' ((c :: path) :: elems)) ['/'] = true := by
        rw [← hc]
        simp [hasPrefix, joinWith]
      exact clean_rooted hjoin

/-- Joining one plain name to a rooted path. -/
theorem join_rooted {path name : GoString} (hrooted : hasPrefix path ['/'] = true)
    (hname : Plain name) : join [path, name] = rootPath (components path ++ [name]) := by
  rw [join_of_rooted hrooted]
  have hjoin : joinWith '/' [path, name] = path ++ '/' :: name := by
    simp [joinWith]
  rw [hjoin, components_append_plain path hname]

theorem rootPath_concat {cs : List GoString} (hcs : cs ≠ []) (c : GoString) :
    rootPath (cs ++ [c]) = rootPath cs ++ '/' :: c := by
  unfold rootPath
  rw [← joinWith_joinWith_cons hcs, joinWith_cons_cons, joinWith_singleton, List.cons_append]

/-- A component of three characters or more is neither `.` nor `..`. -/
theorem plain_of_length {component : GoString} (hlength : 2 < component.length)
    (hslash : '/' ∉ component) : Plain component := by
  refine ⟨?_, ?_, ?_, hslash⟩
  · rintro rfl
    simp at hlength
  · rintro rfl
    simp at hlength
  · rintro rfl
    simp at hlength

/-- Joining plain components to a rooted path of plain components. -/
theorem join_rootPath {cs ds : List GoString} (hcs : cs ≠ [])
    (hplain : ∀ c ∈ cs ++ ds, Plain c) : join (rootPath cs :: ds) = rootPath (cs ++ ds) := by
  have hbody : joinWith '/' (rootPath cs :: ds) = rootPath (cs ++ ds) := by
    unfold rootPath
    rw [← joinWith_joinWith_cons hcs]
    cases ds with
    | nil => rfl
    | cons d ds => rw [joinWith_cons_cons, joinWith_cons_cons, List.cons_append]
  have hrooted : hasPrefix (rootPath cs) ['/'] = true := by simp [hasPrefix, rootPath]
  rw [join_of_rooted hrooted, hbody, components_rootPath hplain]

@[simp] theorem hasPrefix_rootPath (cs : List GoString) :
    hasPrefix (rootPath cs) ['/'] = true := by
  simp [hasPrefix, rootPath]

end filepath

end GoLib
