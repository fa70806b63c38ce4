import Genaryx.Base.Settings

/-!
# Bodies of HCL

A body is a list of attributes and blocks, and a block has a body of its own. Its lines open and
close the blocks in turn. Going through the lines again gives the body back, and no other lines
give it but blank ones.
-/

namespace Genaryx.Hcl

open Settings

variable {F : Type}

inductive Item (F : Type)
  | attr (name : Text) (value : Value F)
  | block (type : Text) (labels : List Text) (body : List (Item F))

/-- One line of a file: nothing, an attribute, or one end of a block. -/
inductive Line (F : Type)
  | blank
  | attr (name : Text) (value : Value F)
  | opening (type : Text) (labels : List Text)
  | closing
  deriving DecidableEq

def Line.isBlank : Line F → Bool
  | blank => true
  | _ => false

mutual

def Item.lines : Item F → List (Line F)
  | .attr name value => [.attr name value]
  | .block type labels body => .opening type labels :: (bodyLines body ++ [.closing])

/-- The lines of a body. -/
def bodyLines : List (Item F) → List (Line F)
  | [] => []
  | item :: items => item.lines ++ bodyLines items

end

def attributeNames (items : List (Item F)) : List Text :=
  items.filterMap fun item =>
    match item with
    | .attr name _ => some name
    | .block _ _ _ => none

mutual

/-- No body in the item sets an attribute twice. -/
def Item.Distinct : Item F → Prop
  | .attr _ _ => True
  | .block _ _ body => (attributeNames body).Nodup ∧ AllDistinct body

def AllDistinct : List (Item F) → Prop
  | [] => True
  | item :: items => item.Distinct ∧ AllDistinct items

end

/-- No body in the items sets an attribute twice if none in any of them does. -/
theorem allDistinct_of_forall {items : List (Item F)} (h : ∀ item ∈ items, item.Distinct) :
    AllDistinct items := by
  induction items with
  | nil => trivial
  | cons item items ih =>
      obtain ⟨hitem, hitems⟩ := List.forall_mem_cons.mp h
      exact ⟨hitem, ih hitems⟩

/-- A block that is open: its header, and what stands before it in the body around it. -/
structure Frame (F : Type) where
  type : Text
  labels : List Text
  before : List (Item F)

/-- How far a file has been read: the items of the innermost body, and the open blocks. -/
structure Reading (F : Type) where
  items : List (Item F)
  outer : List (Frame F)

namespace Reading

def step (s : Reading F) : Line F → Option (Reading F)
  | .blank => some s
  | .attr name value =>
      if name ∈ attributeNames s.items then none
      else some { s with items := s.items ++ [.attr name value] }
  | .opening type labels => some ⟨[], ⟨type, labels, s.items⟩ :: s.outer⟩
  | .closing =>
      match s.outer with
      | [] => none
      | frame :: outer => some ⟨frame.before ++ [.block frame.type frame.labels s.items], outer⟩

end Reading

/-- The body that lines make. -/
def assemble (lines : List (Line F)) : Option (List (Item F)) :=
  (lines.foldlM Reading.step ⟨[], []⟩).bind fun s => if s.outer.isEmpty then some s.items else none

theorem bodyLines_append (a b : List (Item F)) :
    bodyLines (a ++ b) = bodyLines a ++ bodyLines b := by
  induction a with
  | nil => rfl
  | cons item a ih => rw [List.cons_append, bodyLines, bodyLines, ih, List.append_assoc]

theorem attributeNames_append (a b : List (Item F)) :
    attributeNames (a ++ b) = attributeNames a ++ attributeNames b :=
  List.filterMap_append

section Assemble

mutual

/-- Going through the lines of an item adds the item. -/
theorem foldlM_lines (item : Item F) (h : item.Distinct) (s : Reading F)
    (hnew : (attributeNames (s.items ++ [item])).Nodup) :
    item.lines.foldlM Reading.step s = some { s with items := s.items ++ [item] } := by
  cases item with
  | attr name value =>
      rw [attributeNames_append] at hnew
      have hname : name ∉ attributeNames s.items := fun hmem =>
        List.nodup_append.mp hnew |>.2.2 name hmem name (List.mem_singleton_self name) rfl
      simp only [Item.lines, List.foldlM_cons, List.foldlM_nil, Reading.step, if_neg hname]
      rfl
  | block type labels body =>
      have hbody := foldlM_bodyLines body h.2 ⟨[], ⟨type, labels, s.items⟩ :: s.outer⟩ h.1
      simp only [Item.lines, List.foldlM_cons, Reading.step, List.foldlM_append,
        Option.bind_eq_bind, Option.bind_some, hbody]
      rfl

theorem foldlM_bodyLines (items : List (Item F)) (h : AllDistinct items) (s : Reading F)
    (hnew : (attributeNames (s.items ++ items)).Nodup) :
    (bodyLines items).foldlM Reading.step s = some { s with items := s.items ++ items } := by
  cases items with
  | nil =>
      rw [List.append_nil]
      rfl
  | cons item items =>
      have hsplit : s.items ++ item :: items = s.items ++ [item] ++ items := by
        rw [List.append_assoc, List.singleton_append]
      rw [hsplit] at hnew
      have hfirst : (attributeNames (s.items ++ [item])).Nodup := by
        rw [attributeNames_append] at hnew
        exact (List.nodup_append.mp hnew).1
      rw [bodyLines, List.foldlM_append, foldlM_lines item h.1 s hfirst, hsplit]
      exact foldlM_bodyLines items h.2 { s with items := s.items ++ [item] } hnew

end

/-- The lines of a body make the body. -/
theorem assemble_bodyLines {body : List (Item F)} (hnames : (attributeNames body).Nodup)
    (h : AllDistinct body) : assemble (bodyLines body) = some body := by
  rw [assemble, foldlM_bodyLines body h ⟨[], []⟩ hnames]
  rfl

theorem foldlM_filter_isBlank (lines : List (Line F)) (s : Reading F) :
    (lines.filter (!·.isBlank)).foldlM Reading.step s = lines.foldlM Reading.step s := by
  induction lines generalizing s with
  | nil => rfl
  | cons l lines ih =>
      rw [List.filter_cons]
      split
      · rw [List.foldlM_cons, List.foldlM_cons]
        exact congrArg ((s.step l).bind ·) (funext ih)
      · next hblank =>
          cases l with
          | blank => exact ih s
          | _ => exact absurd rfl hblank

/-- Blank lines do not count. -/
theorem assemble_filter_isBlank (lines : List (Line F)) :
    assemble (lines.filter (!·.isBlank)) = assemble lines := by
  rw [assemble, assemble, foldlM_filter_isBlank]

/-- The lines before the innermost body. -/
def outerLines : List (Frame F) → List (Line F)
  | [] => []
  | frame :: outer =>
      outerLines outer ++ bodyLines frame.before ++ [.opening frame.type frame.labels]

/-- The lines that have been read, but for the blank ones. -/
def Reading.lines (s : Reading F) : List (Line F) := outerLines s.outer ++ bodyLines s.items

theorem Reading.lines_step {s s' : Reading F} {l : Line F} (h : s.step l = some s') :
    s'.lines = s.lines ++ [l].filter (!·.isBlank) := by
  cases l with
  | blank =>
      cases h
      exact (List.append_nil _).symm
  | attr name value =>
      rw [step] at h
      split at h
      · cases h
      · cases h
        simp [lines, bodyLines_append, bodyLines, Item.lines, Line.isBlank]
  | opening type labels =>
      cases h
      simp [lines, outerLines, bodyLines, Line.isBlank]
  | closing =>
      obtain ⟨items, outer⟩ := s
      cases outer with
      | nil => cases h
      | cons frame outer =>
          cases h
          simp [lines, outerLines, bodyLines_append, bodyLines, Item.lines, Line.isBlank]

theorem Reading.lines_foldlM {lines : List (Line F)} {s s' : Reading F}
    (h : lines.foldlM step s = some s') : s'.lines = s.lines ++ lines.filter (!·.isBlank) := by
  induction lines generalizing s with
  | nil =>
      cases h
      exact (List.append_nil _).symm
  | cons l lines ih =>
      obtain ⟨t, hstep, hrest⟩ := Option.bind_eq_some_iff.mp h
      rw [ih hrest, lines_step hstep, List.append_assoc, ← List.filter_append]
      rfl

/-- Only the lines of a body make it, and blank ones between them. -/
theorem bodyLines_of_assemble {lines : List (Line F)} {body : List (Item F)}
    (h : assemble lines = some body) : bodyLines body = lines.filter (!·.isBlank) := by
  obtain ⟨⟨items, outer⟩, hrun, hend⟩ := Option.bind_eq_some_iff.mp h
  cases outer with
  | nil =>
      cases hend
      exact Reading.lines_foldlM hrun
  | cons frame outer => cases hend

end Assemble

end Genaryx.Hcl
