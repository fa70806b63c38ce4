import Genaryx.Base.Offsets
import Genaryx.Base.Replace
import Genaryx.Replay.Backtest
import Genaryx.Replay.Report

/-!
# The tables of a query

A query prints a table with borders, its cells filled up with blanks to the width of their column.
Two tables are read: how many calls a copy wrote, and how many calls and steps a trace has.
-/

namespace Genaryx.Replay

open Base Text

def isBorder (line : Text) : Bool :=
  decide (3 ≤ Utf8.len line) && line.all fun c => c == '+' || c == '-'

/-- The cells of a line between bars, trimmed. -/
def cellsOf (line : Text) : Option (List Text) := do
  let rest ← stripPrefix "| ".toList line
  let inner ← stripSuffix " |".toList rest
  return (cut " | ".toList inner).map trim

/-- The rows of a table behind its header, each as wide as that. -/
def rowsOf (width : Nat) (lines : List Text) : Option (List (List Text)) :=
  lines.mapM fun line =>
    (cellsOf line).bind fun row => if row.length = width then some row else none

/-- The header row, then each row. -/
def parseTable (text : Text) : Option (List (List Text)) :=
  match lines text with
  | top :: head :: middle :: rest =>
      match rest.getLast? with
      | none => none
      | some bottom =>
          if isBorder top && isBorder middle && isBorder bottom then do
            let header ← cellsOf head
            let rows ← rowsOf header.length rest.dropLast
            return header :: rows
          else none
  | _ => none

/-- How many rows a copy reported writing. -/
def parseCopyCount (text : Text) : Option Nat := do
  let table ← parseTable text
  match table with
  | [[name], [cell]] => if name = "count".toList then countOf cell else none
  | _ => none

/-- How many calls a trace holds and how many distinct steps they carry. -/
def parseStepCounts (text : Text) : Option (Nat × Nat) := do
  let table ← parseTable text
  match table with
  | [[first, second], [rows, steps]] =>
      if first = "n".toList ∧ second = "steps".toList then do
        let n ← countOf rows
        let m ← countOf steps
        return (n, m)
      else none
  | _ => none

/-! ## Tables as they are printed -/

/-- The line between two rows. -/
def borderLine (widths : List Nat) : Text :=
  '+' :: widths.flatMap fun w => List.replicate (w + 2) '-' ++ ['+']

/-- A row, with every cell filled up to the width of its column. -/
def rowLine (widths : List Nat) (cells : List Text) : Text :=
  "| ".toList ++ " | ".toList.intercalate (List.zipWith padRight widths cells) ++ " |".toList

/-- A header and rows. -/
def printTable (widths : List Nat) (header : List Text) (rows : List (List Text)) : Text :=
  Framing.terminated '\n'
    (borderLine widths :: rowLine widths header :: borderLine widths ::
      (rows.map (rowLine widths) ++ [borderLine widths]))

/-- A cell that is told from what is printed around it. -/
structure IsCell (t : Text) : Prop where
  bar : '|' ∉ t
  newline : '\n' ∉ t
  head : ∀ c, t.head? = some c → isWhitespace c = false
  last : ∀ c, t.getLast? = some c → isWhitespace c = false

section Cells

variable {t : Text} {w : Nat} {cells : List Text} {widths : List Nat}

theorem IsCell.of_clean (hbar : '|' ∉ t) (h : ∀ c ∈ t, isWhitespace c = false) : IsCell t where
  bar := hbar
  newline := fun hmem => absurd (h '\n' hmem) (by decide)
  head := fun c hc => h c (List.mem_of_mem_head? hc)
  last := fun c hc => h c (List.mem_of_getLast? hc)

/-- What fills a cell up is trimmed away. -/
theorem trim_padRight (h : IsCell t) (w : Nat) : trim (padRight w t) = t := by
  have hblank : ∀ c ∈ List.replicate (w - t.length) ' ', isWhitespace c = true := by
    intro c hc
    rw [List.eq_of_mem_replicate hc]
    rfl
  rw [padRight, trim]
  cases t with
  | nil =>
      rw [List.nil_append, ← List.append_nil (List.replicate _ ' '),
        List.dropWhile_append_of_pos hblank]
      rfl
  | cons c t =>
      have hstart : List.dropWhile isWhitespace (c :: t ++ List.replicate (w - (c :: t).length) ' ') =
          c :: t ++ List.replicate (w - (c :: t).length) ' ' := by
        rw [List.cons_append, List.dropWhile_cons_of_neg]
        rw [h.head c rfl]
        exact Bool.false_ne_true
      have hend : List.dropWhile isWhitespace (c :: t).reverse = (c :: t).reverse := by
        obtain ⟨d, rest, hrev⟩ := List.exists_cons_of_ne_nil
          (List.reverse_ne_nil_iff.mpr (List.cons_ne_nil c t))
        have hlast : (c :: t).getLast? = some d := by
          rw [← List.head?_reverse, hrev]
          rfl
        rw [hrev, List.dropWhile_cons_of_neg]
        rw [h.last d hlast]
        exact Bool.false_ne_true
      rw [hstart, List.reverse_append, List.reverse_replicate, List.dropWhile_append_of_pos hblank,
        hend, List.reverse_reverse]

theorem notMem_padRight {c : Char} (hc : c ≠ ' ') (h : c ∉ t) (w : Nat) : c ∉ padRight w t := by
  rw [padRight, List.mem_append, not_or]
  exact ⟨h, fun hmem => hc (List.eq_of_mem_replicate hmem)⟩

/-- Without a bar, a cell ends where the next bar is. -/
theorem clean_of_notMem (h : '|' ∉ t) : Clean " | ".toList t := by
  intro a b hab
  have hbar : ∀ s u : Text, s ++ " | ".toList ++ u = (s ++ [' ']) ++ '|' :: (' ' :: u) := by
    intro s u
    simp
  by_contra hlt
  rw [Nat.not_le] at hlt
  have ha : '|' ∉ a := by
    intro hmem
    have hstart : a <+: t := by
      refine List.prefix_of_prefix_length_le ⟨" | ".toList ++ b, ?_⟩
        (List.prefix_append t " | ".toList) hlt.le
      rw [hab, List.append_assoc]
    exact h (hstart.subset hmem)
  have hsame := hbar a b
  have htext := hbar t []
  rw [List.append_nil] at htext
  rw [← hab, htext] at hsame
  have hside : '|' ∉ t ++ [' '] := by simp [h]
  have hside' : '|' ∉ a ++ [' '] := by simp [ha]
  obtain ⟨heq, -⟩ := append_cons_inj hside hside' hsame
  have hlength := congrArg List.length heq
  simp only [List.length_append, List.length_singleton] at hlength
  omega

/-- The cells of a row are cut apart where they were joined. -/
theorem cut_intercalate (hne : cells ≠ []) (h : ∀ c ∈ cells, '|' ∉ c) :
    cut " | ".toList (" | ".toList.intercalate cells) = cells := by
  induction cells with
  | nil => exact absurd rfl hne
  | cons c cells ih =>
      obtain ⟨hc, hcells⟩ := List.forall_mem_cons.mp h
      cases cells with
      | nil =>
          have hsingle : " | ".toList.intercalate [c] = c := by simp [List.intercalate]
          rw [hsingle]
          apply cut_of_not_infix
          intro hwithin
          exact hc (hwithin.subset (by decide))
      | cons d cells =>
          rw [List.intercalate_cons_cons,
            cut_append (by decide) (clean_of_notMem hc), ih (List.cons_ne_nil d cells) hcells]

/-- The cells of a printed row, each filled up. -/
theorem bar_notMem_zipWith (h : ∀ c ∈ cells, IsCell c) (widths : List Nat) :
    ∀ c ∈ List.zipWith padRight widths cells, '|' ∉ c := by
  intro c hc
  obtain ⟨w, cell, hmem, rfl⟩ : ∃ w cell, cell ∈ cells ∧ padRight w cell = c := by
    obtain ⟨i, hi, hget⟩ := List.mem_iff_getElem.mp hc
    rw [List.getElem_zipWith] at hget
    exact ⟨_, _, List.getElem_mem _, hget⟩
  exact notMem_padRight (by decide) (h cell hmem).bar w

theorem map_trim_zipWith (h : ∀ c ∈ cells, IsCell c) (hlength : widths.length = cells.length) :
    (List.zipWith padRight widths cells).map trim = cells := by
  induction cells generalizing widths with
  | nil => rw [List.zipWith_nil_right]; rfl
  | cons c cells ih =>
      obtain ⟨hc, hcells⟩ := List.forall_mem_cons.mp h
      cases widths with
      | nil => cases hlength
      | cons w widths =>
          rw [List.zipWith_cons_cons, List.map_cons, trim_padRight hc,
            ih hcells (Nat.succ.inj hlength)]

/-- A printed row is read back. -/
theorem cellsOf_rowLine (hne : cells ≠ []) (h : ∀ c ∈ cells, IsCell c)
    (hlength : widths.length = cells.length) : cellsOf (rowLine widths cells) = some cells := by
  have hfilled : List.zipWith padRight widths cells ≠ [] := by
    intro hnil
    have hzero := congrArg List.length hnil
    rw [List.length_zipWith, hlength, Nat.min_self, List.length_nil] at hzero
    exact hne (List.length_eq_zero_iff.mp hzero)
  rw [cellsOf, rowLine, List.append_assoc, stripPrefix_append]
  simp only [bind, Option.bind, pure]
  rw [stripSuffix_append]
  simp only
  rw [cut_intercalate hfilled (bar_notMem_zipWith h widths), map_trim_zipWith h hlength]

omit t w cells widths in
/-- A character of joined pieces is one of the separator or of a piece. -/
theorem mem_sep_or_piece {sep : Text} {pieces : List Text} {c : Char}
    (h : c ∈ sep.intercalate pieces) : c ∈ sep ∨ ∃ piece ∈ pieces, c ∈ piece := by
  induction pieces with
  | nil => exact absurd h (by simp [List.intercalate])
  | cons piece pieces ih =>
      cases pieces with
      | nil =>
          have hsingle : sep.intercalate [piece] = piece := by simp [List.intercalate]
          rw [hsingle] at h
          exact .inr ⟨piece, List.mem_cons_self, h⟩
      | cons next pieces =>
          rw [List.intercalate_cons_cons, List.mem_append, List.mem_append] at h
          rcases h with (h | h) | h
          · exact .inr ⟨piece, List.mem_cons_self, h⟩
          · exact .inl h
          · refine (ih h).imp_right fun ⟨p, hp, hcp⟩ => ?_
            exact ⟨p, List.mem_cons_of_mem piece hp, hcp⟩

theorem newline_notMem_rowLine (h : ∀ c ∈ cells, IsCell c) : '\n' ∉ rowLine widths cells := by
  have hinside : '\n' ∉ " | ".toList.intercalate (List.zipWith padRight widths cells) := by
    intro hmem
    rcases mem_sep_or_piece hmem with hsep | ⟨piece, hpiece, hmem⟩
    · exact absurd hsep (by decide)
    · obtain ⟨i, hi, rfl⟩ := List.mem_iff_getElem.mp hpiece
      rw [List.getElem_zipWith] at hmem
      exact notMem_padRight (by decide) (h _ (List.getElem_mem _)).newline _ hmem
  rw [rowLine, List.mem_append, List.mem_append]
  rintro ((hmem | hmem) | hmem)
  · exact absurd hmem (by decide)
  · exact hinside hmem
  · exact absurd hmem (by decide)

theorem mem_borderLine {c : Char} (h : c ∈ borderLine widths) : c = '+' ∨ c = '-' := by
  rcases List.mem_cons.mp h with hplus | hmem
  · exact .inl hplus
  · obtain ⟨w, -, hw⟩ := List.mem_flatMap.mp hmem
    rcases List.mem_append.mp hw with hdash | hplus
    · exact .inr (List.eq_of_mem_replicate hdash)
    · exact .inl (List.mem_singleton.mp hplus)

theorem isBorder_borderLine (hne : widths ≠ []) : isBorder (borderLine widths) = true := by
  obtain ⟨w, rest, rfl⟩ := List.exists_cons_of_ne_nil hne
  have hlength : 3 ≤ Utf8.len (borderLine (w :: rest)) := by
    have hlen : Utf8.len ('+' :: '-' :: ['-']) = 3 := rfl
    have hfront : borderLine (w :: rest) =
        ('+' :: '-' :: ['-']) ++ (List.replicate w '-' ++ ['+'] ++
          rest.flatMap fun w => List.replicate (w + 2) '-' ++ ['+']) := rfl
    rw [hfront, Utf8.len_append, hlen]
    exact Nat.le_add_right _ _
  rw [isBorder, decide_eq_true hlength, Bool.true_and, List.all_eq_true]
  intro c hc
  rcases mem_borderLine hc with rfl | rfl <;> rfl

end Cells

/-! ## Tables that are read back -/

section Tables

variable {widths : List Nat} {header : List Text} {rows : List (List Text)}

/-- A table whose columns have a width, whose rows are as wide as its header, and whose cells are
told apart. -/
structure IsTable (widths : List Nat) (header : List Text) (rows : List (List Text)) : Prop where
  ne_nil : header ≠ []
  columns : widths.length = header.length
  header_cells : ∀ c ∈ header, IsCell c
  row_length : ∀ row ∈ rows, row.length = header.length
  row_cells : ∀ row ∈ rows, ∀ c ∈ row, IsCell c

theorem lines_printTable (h : IsTable widths header rows) :
    lines (printTable widths header rows) =
      borderLine widths :: rowLine widths header :: borderLine widths ::
        (rows.map (rowLine widths) ++ [borderLine widths]) := by
  have hborder : ∀ {c : Char}, c ≠ '+' → c ≠ '-' → c ∉ borderLine widths := by
    intro c hplus hdash hmem
    exact (mem_borderLine hmem).elim hplus hdash
  have hreturn : ∀ cells : List Text, (rowLine widths cells).getLast? ≠ some '\r' := by
    intro cells
    have hlast : (rowLine widths cells).getLast? = some '|' := by
      rw [rowLine, List.getLast?_append_of_ne_nil _ (by decide)]
      decide
    rw [hlast]
    decide
  have hstrip : ∀ line ∈ borderLine widths :: rowLine widths header :: borderLine widths ::
      (rows.map (rowLine widths) ++ [borderLine widths]), '\n' ∉ line ∧
        stripCarriageReturn line = line := by
    have hbordered : '\n' ∉ borderLine widths ∧
        stripCarriageReturn (borderLine widths) = borderLine widths :=
      ⟨hborder (by decide) (by decide),
        stripCarriageReturn_of_notMem (hborder (by decide) (by decide))⟩
    intro line hline
    simp only [List.mem_cons, List.mem_append, List.mem_map, List.not_mem_nil, or_false] at hline
    rcases hline with rfl | rfl | rfl | ⟨row, hrow, rfl⟩ | rfl
    · exact hbordered
    · exact ⟨newline_notMem_rowLine h.header_cells, if_neg (hreturn header)⟩
    · exact hbordered
    · exact ⟨newline_notMem_rowLine (h.row_cells row hrow), if_neg (hreturn row)⟩
    · exact hbordered
  have hread := lines_terminated_append (fun line hline => (hstrip line hline).1) []
  rw [List.append_nil, lines_nil, List.append_nil] at hread
  rw [printTable, hread]
  conv_rhs => rw [← List.map_id' (borderLine widths :: rowLine widths header :: borderLine widths ::
    (rows.map (rowLine widths) ++ [borderLine widths]))]
  exact List.map_congr_left fun line hline => (hstrip line hline).2

theorem rowsOf_map_rowLine (h : IsTable widths header rows) :
    rowsOf header.length (rows.map (rowLine widths)) = some rows := by
  have hall : ∀ rows' ⊆ rows, rowsOf header.length (rows'.map (rowLine widths)) = some rows' := by
    intro rows' hsub
    induction rows' with
    | nil => rfl
    | cons row rows' ih =>
        have hrow : row ∈ rows := hsub List.mem_cons_self
        have hne : row ≠ [] := by
          rintro rfl
          exact h.ne_nil (List.length_eq_zero_iff.mp (h.row_length [] hrow).symm)
        have hlength := h.columns.trans (h.row_length row hrow).symm
        have hcells := cellsOf_rowLine hne (h.row_cells row hrow) hlength
        have hrest := ih (List.subset_of_cons_subset hsub)
        rw [rowsOf] at hrest ⊢
        rw [List.map_cons, List.mapM_cons, hcells, Option.bind_some, if_pos (h.row_length row hrow),
          hrest]
        rfl
  exact hall rows (List.Subset.refl rows)

/-- A table is read back as its header and its rows. -/
theorem parseTable_printTable (h : IsTable widths header rows) :
    parseTable (printTable widths header rows) = some (header :: rows) := by
  have hwidths : widths ≠ [] := by
    rintro rfl
    exact h.ne_nil (List.length_eq_zero_iff.mp h.columns.symm)
  rw [parseTable, lines_printTable h]
  simp only
  rw [List.getLast?_concat]
  simp only
  rw [isBorder_borderLine hwidths, Bool.and_self, Bool.and_self, if_pos rfl,
    cellsOf_rowLine h.ne_nil h.header_cells h.columns, List.dropLast_concat]
  simp only [bind, Option.bind, pure]
  rw [rowsOf_map_rowLine h]

end Tables

/-! ## Counts -/

theorem isCell_decimal (n : Nat) : IsCell (decimal n) := by
  apply IsCell.of_clean
  · intro hmem
    exact absurd (isDigit_of_mem_decimal hmem) (by decide)
  · exact fun c => not_isWhitespace_of_mem_decimal

theorem countOf_decimal (n : Nat) : countOf (decimal n) = if n < u64Size then some n else none := by
  have hne : (decimal n).isEmpty = false := List.isEmpty_eq_false_iff.mpr (decimal_ne_nil n)
  have hdigits : (decimal n).all Char.isDigit = true :=
    List.all_eq_true.mpr fun c hc => isDigit_of_mem_decimal hc
  rw [countOf, hne, hdigits, if_neg (by decide), parseU64_decimal]

/-- The tables of the proof are read as they are printed, however wide their columns are, and every
other table as none of them. -/
structure TablesReadBack : Prop where
  table : ∀ widths header rows, IsTable widths header rows →
    parseTable (printTable widths header rows) = some (header :: rows)
  copied : ∀ width n, parseCopyCount (printTable [width] ["count".toList] [[decimal n]]) =
    if n < u64Size then some n else none
  counted : ∀ w v n m,
    parseStepCounts (printTable [w, v] ["n".toList, "steps".toList] [[decimal n, decimal m]]) =
      if n < u64Size ∧ m < u64Size then some (n, m) else none
  one_row : ∀ widths header rows, IsTable widths header rows → rows.length ≠ 1 →
    parseCopyCount (printTable widths header rows) = none ∧
      parseStepCounts (printTable widths header rows) = none
  told_apart : ∀ text n, parseCopyCount text = some n → parseStepCounts text = none

/-- **A table is read back whatever its columns are filled up to.** -/
theorem tables_read_back : TablesReadBack where
  table _ _ _ := parseTable_printTable
  copied width n := by
    have htable : IsTable [width] ["count".toList] [[decimal n]] := by
      have hcell : IsCell "count".toList := IsCell.of_clean (by decide) (by decide)
      refine ⟨by decide, rfl, ?_, ?_, ?_⟩
      · rintro c hc
        rwa [List.mem_singleton.mp hc]
      · rintro row hrow
        rw [List.mem_singleton.mp hrow]
        rfl
      · rintro row hrow c hc
        rw [List.mem_singleton.mp hrow, List.mem_singleton] at hc
        rw [hc]
        exact isCell_decimal n
    rw [parseCopyCount, parseTable_printTable htable]
    simp only [bind, Option.bind, if_true]
    exact countOf_decimal n
  counted w v n m := by
    have htable : IsTable [w, v] ["n".toList, "steps".toList] [[decimal n, decimal m]] := by
      refine ⟨by decide, rfl, ?_, ?_, ?_⟩
      · rintro c hc
        rw [List.mem_pair] at hc
        rcases hc with rfl | rfl
        · exact IsCell.of_clean (by decide) (by decide)
        · exact IsCell.of_clean (by decide) (by decide)
      · rintro row hrow
        rw [List.mem_singleton.mp hrow]
        rfl
      · rintro row hrow c hc
        rw [List.mem_singleton.mp hrow, List.mem_pair] at hc
        rcases hc with rfl | rfl
        · exact isCell_decimal n
        · exact isCell_decimal m
    rw [parseStepCounts, parseTable_printTable htable]
    simp only [bind, Option.bind, pure, and_self, if_true]
    rw [countOf_decimal, countOf_decimal]
    by_cases hn : n < u64Size
    · by_cases hm : m < u64Size
      · rw [if_pos hn, if_pos hm, if_pos ⟨hn, hm⟩]
      · have hnot : ¬ (n < u64Size ∧ m < u64Size) := fun h => hm h.2
        rw [if_pos hn, if_neg hm, if_neg hnot]
    · have hnot : ¬ (n < u64Size ∧ m < u64Size) := fun h => hn h.1
      rw [if_neg hn, if_neg hnot]
  one_row widths header rows h hlength := by
    rw [parseCopyCount, parseStepCounts, parseTable_printTable h]
    simp only [bind, Option.bind]
    constructor
    · split
      · next heq =>
          cases heq
          exact absurd rfl hlength
      · rfl
    · split
      · next heq =>
          cases heq
          exact absurd rfl hlength
      · rfl
  told_apart text n h := by
    rw [parseCopyCount] at h
    rw [parseStepCounts]
    cases htable : parseTable text with
    | none => rfl
    | some table =>
        rw [htable] at h
        simp only [bind, Option.bind] at h ⊢
        split at h
        · rfl
        · cases h

end Genaryx.Replay
