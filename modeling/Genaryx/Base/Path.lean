import Genaryx.Base.Text

/-!
# Unix paths as texts

The parts of a path that `std::path::Path` names, and the equality that it compares paths
by: two spellings are one path when they have the same components.
-/

namespace Genaryx.Path

/-- `std::path::Component` on Unix. -/
inductive Component
  | rootDir
  | curDir
  | parentDir
  | normal (name : Text)
  deriving DecidableEq

/-- The component that stands between two separators, if it counts. -/
def Component.ofPart (part : Text) : Option Component :=
  if part = [] ∨ part = "." then none
  else if part = ".." then some parentDir
  else some (normal part)

/-- `Path::components`: repeated separators and a `.` past the start do not count. -/
def components (path : Text) : List Component :=
  let parts := path.splitOn '/'
  let start :=
    if path.head? = some '/' then [.rootDir]
    else if parts.head? = some "." then [.curDir]
    else []
  start ++ parts.filterMap Component.ofPart

/-- `Path == Path`. -/
def same (p q : Text) : Bool := components p = components q

/-- `Path::is_absolute`. -/
def isAbsolute (path : Text) : Bool := path.head? = some '/'

/-- `Path::file_name`. -/
def fileName (path : Text) : Option Text :=
  match (components path).getLast? with
  | some (.normal name) => some name
  | _ => none

/-- A file name at its last dot: what stands before it, if anything, and what stands after. -/
def splitAtDot (name : Text) : Option Text × Option Text :=
  if name = ".." then (some name, none)
  else
    match Text.splitOnce '.' name.reverse with
    | none => (none, some name)
    | some (_, []) => (some name, none)
    | some (after, before) => (some before.reverse, some after.reverse)

/-- `Path::file_stem`. -/
def fileStem (path : Text) : Option Text :=
  (fileName path).bind fun name => (splitAtDot name).1.or (splitAtDot name).2

/-- `Path::extension`. -/
def extension (path : Text) : Option Text :=
  (fileName path).bind fun name => (splitAtDot name).1.bind fun _ => (splitAtDot name).2

/-- `Path::join`. -/
def join (path name : Text) : Text :=
  if isAbsolute name then name
  else if path = [] ∨ path.getLast? = some '/' then path ++ name
  else path ++ '/' :: name

/-- `Path::parent`, as its components. -/
def parent (path : Text) : Option (List Component) :=
  match (components path).getLast? with
  | none | some .rootDir => none
  | some _ => some (components path).dropLast

/-- How a component is ordered among others. -/
def Component.key : Component → List Nat
  | rootDir => [0]
  | curDir => [1]
  | parentDir => [2]
  | normal name => 3 :: name.map Char.toNat

/-- The order of paths, component by component. -/
def le (p q : Text) : Bool :=
  decide (¬ (components q).map Component.key < (components p).map Component.key)

theorem same_iff {p q : Text} : same p q = true ↔ components p = components q := by
  rw [same, decide_eq_true_iff]

/-- The stem of a file does not depend on the spelling of its path. -/
theorem fileStem_congr {p q : Text} (h : same p q = true) : fileStem p = fileStem q := by
  rw [fileStem, fileStem, fileName, fileName, same_iff.mp h]

section Join

/-- The text of one component that is no `.` or `..`. -/
structure IsName (name : Text) : Prop where
  ne_nil : name ≠ []
  ne_dot : name ≠ "."
  ne_dots : name ≠ ".."
  slash_notMem : '/' ∉ name

variable {name : Text}

theorem ofPart_name (h : IsName name) : Component.ofPart name = some (.normal name) := by
  rw [Component.ofPart, if_neg (not_or.mpr ⟨h.ne_nil, h.ne_dot⟩), if_neg h.ne_dots]

theorem IsName.not_isAbsolute (h : IsName name) : isAbsolute name = false := by
  rw [isAbsolute, decide_eq_false_iff_not]
  exact fun hhead => h.slash_notMem (List.mem_of_mem_head? hhead)

theorem IsName.splitOn (h : IsName name) : name.splitOn '/' = [name] :=
  List.splitOnP_eq_singleton fun c hc => by
    rw [beq_eq_false_iff_ne]
    rintro rfl
    exact h.slash_notMem hc

theorem splitOn_append_slash (a : Text) (h : IsName name) :
    (a ++ '/' :: name).splitOn '/' = a.splitOn '/' ++ [name] := by
  rw [← h.splitOn]
  exact List.splitOnP_append_cons a name rfl

/-- A name goes behind the components of a path. -/
theorem components_append_slash (a : Text) (h : IsName name) (hne : a ≠ []) :
    components (a ++ '/' :: name) = components a ++ [.normal name] := by
  have hhead : (a ++ '/' :: name).head? = a.head? := List.head?_append_of_ne_nil a hne
  have hparts : (a.splitOn '/' ++ [name]).head? = (a.splitOn '/').head? :=
    List.head?_append_of_ne_nil _ (List.splitOnP_ne_nil _ a)
  rw [components, splitOn_append_slash a h, hhead]
  simp only [hparts, List.filterMap_append, List.filterMap_cons, List.filterMap_nil, ofPart_name h]
  rw [components, List.append_assoc]

theorem components_concat_slash (a : Text) (hne : a ≠ []) :
    components (a ++ ['/']) = components a := by
  have hhead : (a ++ ['/']).head? = a.head? := List.head?_append_of_ne_nil a hne
  have hsplit : (a ++ ['/']).splitOn '/' = a.splitOn '/' ++ [[]] :=
    List.splitOnP_append_cons a [] rfl
  have hparts : (a.splitOn '/' ++ [[]]).head? = (a.splitOn '/').head? :=
    List.head?_append_of_ne_nil _ (List.splitOnP_ne_nil _ a)
  rw [components, hsplit, hhead]
  simp only [hparts, List.filterMap_append, List.filterMap_cons, List.filterMap_nil,
    Component.ofPart, true_or, if_true, List.append_nil]
  rw [components]

/-- Joining a name to a path adds one component. -/
theorem components_join (path : Text) (h : IsName name) :
    components (join path name) = components path ++ [.normal name] := by
  rw [join, if_neg (by rw [h.not_isAbsolute]; exact Bool.false_ne_true)]
  split
  · next hbare =>
      rcases List.eq_nil_or_concat path with rfl | ⟨a, c, rfl⟩
      · have hhead : name.head? ≠ some '/' := fun hhead =>
          h.slash_notMem (List.mem_of_mem_head? hhead)
        rw [List.nil_append, components, h.splitOn, if_neg hhead]
        simp only [List.filterMap_cons, List.filterMap_nil, ofPart_name h]
        split
        · next hdot => exact absurd (Option.some.inj hdot) h.ne_dot
        · rfl
      · have hc : c = '/' := by
          rcases hbare with hnil | hlast
          · exact absurd hnil (by simp)
          · rw [List.concat_eq_append, List.getLast?_concat] at hlast
            exact Option.some.inj hlast
        subst hc
        rw [List.concat_eq_append, List.append_assoc, List.singleton_append]
        rcases eq_or_ne a [] with rfl | hne
        · have hsplit : ('/' :: name).splitOn '/' = [[], name] := splitOn_append_slash [] h
          have hempty : Component.ofPart [] = none := rfl
          rw [List.nil_append, components, hsplit]
          simp only [List.filterMap_cons, List.filterMap_nil, ofPart_name h, hempty]
          rfl
        · rw [components_append_slash a h hne, components_concat_slash a hne]
  · next hbare => exact components_append_slash path h fun hnil => hbare (Or.inl hnil)

/-- Names that are joined to one path are told apart. -/
theorem join_injective (path : Text) {name name' : Text} (h : IsName name) (h' : IsName name')
    (hjoin : join path name = join path name') : name = name' := by
  have hcomponents := congrArg components hjoin
  rw [components_join path h, components_join path h', List.append_cancel_left_eq,
    List.cons.injEq, Component.normal.injEq] at hcomponents
  exact hcomponents.1

theorem fileName_join (path : Text) (h : IsName name) : fileName (join path name) = some name := by
  rw [fileName, components_join path h, List.getLast?_concat]

theorem parent_join (path : Text) (h : IsName name) :
    parent (join path name) = some (components path) := by
  rw [parent, components_join path h, List.getLast?_concat]
  exact congrArg some List.dropLast_concat

/-- A path that is not empty has components. -/
theorem components_ne_nil {path : Text} (h : path ≠ []) : components path ≠ [] := by
  obtain ⟨c, rest, rfl⟩ := List.exists_cons_of_ne_nil h
  obtain ⟨part, parts, hrest⟩ := List.exists_cons_of_ne_nil (List.splitOnP_ne_nil (· == '/') rest)
  have hsplit := List.splitOnP_cons_eq_if_modifyHead (p := (· == '/')) c rest
  rw [components]
  by_cases hslash : c = '/'
  · rw [hslash]
    exact List.cons_ne_nil _ _
  · have hparts : (c :: rest).splitOn '/' = (c :: part) :: parts := by
      rw [List.splitOn, hsplit, if_neg (by simpa using hslash), hrest]
      rfl
    have hhead : (c :: rest).head? ≠ some '/' := fun h => hslash (Option.some.inj h)
    rw [hparts, if_neg hhead]
    by_cases hdot : c :: part = ".".toList
    · rw [List.head?_cons, hdot]
      split
      · exact List.cons_ne_nil _ _
      · next hne => exact absurd rfl hne
    · have hpart : ∃ k, Component.ofPart (c :: part) = some k := by
        rw [Component.ofPart, if_neg (not_or.mpr ⟨List.cons_ne_nil _ _, hdot⟩)]
        split
        · exact ⟨_, rfl⟩
        · exact ⟨_, rfl⟩
      obtain ⟨k, hk⟩ := hpart
      simp [hk]

theorem join_ne_nil (path : Text) {name : Text} (h : name ≠ []) : join path name ≠ [] := by
  rw [join]
  split
  · exact h
  · split
    · exact List.append_ne_nil_of_right_ne_nil _ h
    · exact List.append_ne_nil_of_right_ne_nil _ (List.cons_ne_nil _ _)

end Join

end Genaryx.Path
