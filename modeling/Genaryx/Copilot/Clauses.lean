import Genaryx.Base.Matches
import Genaryx.Copilot.Grounding

/-!
# What the split into clauses leaves out

A sentence is cut where its lower case has a contrast word, at the same byte offsets. A character
whose lower case takes another number of bytes moves the cuts behind it.

## Implementation notes

A text is pared to pieces by leaving out gaps. Whether a stretch is a gap may depend on the text
after it, as an end of a sentence does.
-/

namespace Genaryx.Copilot

variable (L : Letters)

/-- A text falls into pieces with gaps between them. -/
inductive Pared (gap : Text → Text → Prop) : Text → List Text → Prop
  | last (piece : Text) : Pared gap piece [piece]
  | cut {left rest : Text} {pieces : List Text} (piece : Text) (hgap : gap rest left)
      (h : Pared gap rest pieces) : Pared gap (piece ++ left ++ rest) (piece :: pieces)

/-- A contrast word with its spaces, in any case. -/
def IsContrast (left : Text) : Prop := L.toLowercase left ∈ contrastWords

/-- What may be left out before the rest of a text: a contrast word, or a mark that ends a
sentence there, a line or the part before a semicolon. -/
def IsGap (rest left : Text) : Prop :=
  IsContrast L left ∨ ∃ c, left = [c] ∧ endsStatement c rest.head? = true

/-- Whether a piece holds more than white space. -/
def isFilled (piece : Text) : Bool := !(Text.trim piece).isEmpty

/-- The clauses one after another are the text with only gaps and white space left out. -/
def KeepsText (text : Text) : Prop :=
  ∃ pieces, Pared (IsGap L) text pieces ∧
    (clauses L text).flatten = (pieces.filter isFilled).flatten

/-- Each cut that is made at one of the offsets takes out a contrast word of the sentence. -/
def CutsFit (sentence : Text) : Nat → List (Nat × Nat) → Prop
  | _, [] => True
  | start, (pos, len) :: rest =>
      if start ≤ pos && Utf8.isCharBoundary sentence pos &&
          Utf8.isCharBoundary sentence (pos + len) then
        IsContrast L (Utf8.slice sentence pos (pos + len)) ∧ CutsFit sentence (pos + len) rest
      else CutsFit sentence start rest

/-- The lower case of a character takes as many bytes as the character. -/
def KeepsLength (c : Char) : Prop := c = 'Σ' ∨ Utf8.len (L.lower c) = Utf8.len [c]

/-- When the clauses of a text leave out nothing else. -/
structure ClausesWhen : Prop where
  /-- In one text: when the cuts in each of its sentences fit. -/
  enough : ∀ text,
    (∀ sentence ∈ sentencesFrom [] text, CutsFit L sentence 0 (contrastCuts L sentence)) →
      ∃ pieces, Pared (IsGap L) text pieces ∧ clauses L text = pieces.filter isFilled
  /-- In every text of an alphabet that has the ASCII characters. -/
  alphabet : (∀ c, ' ' ∈ L.lower c → c = ' ') →
    ∀ s : Char → Prop, (∀ c : Char, c.toNat < 0x80 → s c) →
      ((∀ text, (∀ c ∈ text, s c) → KeepsText L text) ↔ ∀ c, s c → KeepsLength L c)

namespace Pared

variable {gap : Text → Text → Prop} {text tail left : Text} {pieces others : List Text}

/-- A text that is pared by gaps of a kind, with a gap and another pared text after it. -/
theorem append {kind : Text → Prop} (hkind : ∀ rest w, kind w → gap rest w)
    (h : Pared (fun _ => kind) text pieces) (hleft : gap tail left)
    (htail : Pared gap tail others) : Pared gap (text ++ left ++ tail) (pieces ++ others) := by
  induction h with
  | last piece => exact cut piece hleft htail
  | @cut w rest pieces piece hw _ ih =>
      have hassoc : piece ++ w ++ rest ++ left ++ tail = piece ++ w ++ (rest ++ left ++ tail) := by
        simp only [List.append_assoc]
      rw [hassoc]
      exact cut piece (hkind _ w hw) ih

theorem mono {kind : Text → Prop} (hkind : ∀ rest w, kind w → gap rest w)
    (h : Pared (fun _ => kind) text pieces) : Pared gap text pieces := by
  induction h with
  | last piece => exact last piece
  | cut piece hw _ ih => exact cut piece (hkind _ _ hw) ih

/-- A character that no gap holds is in the pieces as often as in the text. -/
theorem count_eq {c : Char} (hc : ∀ rest w, gap rest w → c ∉ w) (h : Pared gap text pieces) :
    pieces.flatten.count c = text.count c := by
  induction h with
  | last piece => rw [List.flatten_singleton]
  | @cut w rest pieces piece hw _ ih =>
      rw [List.flatten_cons, List.count_append, List.count_append, List.count_append, ih,
        List.count_eq_zero_of_not_mem (hc _ w hw), Nat.add_zero]

end Pared

section Enough

variable {L} {sentence : Text}

/-- A cut that is made falls between a piece and what it takes out. -/
theorem exists_of_cut {done rest : Text} {pos len : Nat} (hsentence : sentence = done ++ rest)
    (hpos : Utf8.len done ≤ pos) (hfirst : Utf8.isCharBoundary sentence pos = true)
    (hlast : Utf8.isCharBoundary sentence (pos + len) = true) :
    ∃ piece w after, rest = piece ++ w ++ after ∧ Utf8.len (done ++ piece) = pos ∧
      Utf8.len w = len := by
  obtain ⟨a, b, hab, ha⟩ := Utf8.isCharBoundary_iff.mp hfirst
  obtain ⟨a', after, hab', ha'⟩ := Utf8.isCharBoundary_iff.mp hlast
  obtain ⟨piece, rfl, rfl⟩ := Utf8.prefix_of_len_le (hsentence.symm.trans hab) (by rw [ha]; exact hpos)
  obtain ⟨w, rfl, rfl⟩ := Utf8.prefix_of_len_le (hab.symm.trans hab') (by omega)
  refine ⟨piece, w, after, by rw [List.append_assoc], ha, ?_⟩
  rw [Utf8.len_append] at ha'
  omega

/-- Cuts that fit pare the rest of a sentence. -/
theorem pared_cutAt {done rest : Text} {start : Nat} {cuts : List (Nat × Nat)}
    (hsentence : sentence = done ++ rest) (hstart : Utf8.len done = start)
    (hfit : CutsFit L sentence start cuts) :
    Pared (fun _ => IsContrast L) rest (cutAt sentence start cuts) := by
  induction cuts generalizing done rest start with
  | nil =>
      have hslice := Utf8.slice_append done rest []
      rw [List.append_nil, ← hsentence, ← Utf8.len_append, ← hsentence, hstart] at hslice
      rw [cutAt, hslice]
      exact .last rest
  | cons cut cuts ih =>
      obtain ⟨pos, len⟩ := cut
      rw [CutsFit] at hfit
      rw [cutAt]
      split at hfit
      · next htaken =>
          rw [if_pos htaken]
          simp only [Bool.and_eq_true, decide_eq_true_eq] at htaken
          obtain ⟨⟨hpos, hfirst⟩, hlast⟩ := htaken
          obtain ⟨piece, w, after, rfl, hpiece, hw⟩ :=
            exists_of_cut hsentence (hstart ▸ hpos) hfirst hlast
          have hbefore : Utf8.slice sentence start pos = piece := by
            have hslice := Utf8.slice_append done piece (w ++ after)
            rw [← Utf8.len_append, hpiece, hstart] at hslice
            rw [hsentence]
            simpa only [List.append_assoc] using hslice
          have hword : Utf8.slice sentence pos (pos + len) = w := by
            have hslice := Utf8.slice_append (done ++ piece) w after
            rw [hpiece, hw] at hslice
            rw [hsentence]
            simpa only [List.append_assoc] using hslice
          rw [hword] at hfit
          rw [hbefore]
          refine .cut piece hfit.1 (@ih (done ++ piece ++ w) _ _ ?_ ?_ hfit.2)
          · rw [hsentence]
            simp only [List.append_assoc]
          · rw [Utf8.len_append, hpiece, hw]
      · next htaken =>
          rw [if_neg htaken]
          exact ih hsentence hstart hfit

/-- Sentences whose cuts fit pare the text. -/
theorem pared_sentences {begun text : Text}
    (h : ∀ sentence ∈ sentencesFrom begun text, CutsFit L sentence 0 (contrastCuts L sentence)) :
    Pared (IsGap L) (begun ++ text) ((sentencesFrom begun text).flatMap (splitContrast L)) := by
  have hsplit {sentence : Text} (hfit : CutsFit L sentence 0 (contrastCuts L sentence)) :
      Pared (fun _ => IsContrast L) sentence (splitContrast L sentence) :=
    pared_cutAt (List.nil_append sentence).symm Utf8.len_nil hfit
  induction text generalizing begun with
  | nil =>
      rw [sentencesFrom, List.append_nil, List.flatMap_singleton]
      exact (hsplit (h begun List.mem_cons_self)).mono fun _ _ => .inl
  | cons c text ih =>
      rw [sentencesFrom] at h ⊢
      split at h
      · next hmark =>
          rw [if_pos hmark, List.flatMap_cons, List.append_cons]
          exact (hsplit (h begun List.mem_cons_self)).append (fun _ _ => .inl) (.inr ⟨c, rfl, hmark⟩)
            (ih fun sentence hs => h sentence (List.mem_cons_of_mem begun hs))
      · next hmark =>
          rw [if_neg hmark, List.append_cons]
          exact ih h

theorem clauses_eq_filter (text : Text) :
    clauses L text = ((sentencesFrom [] text).flatMap (splitContrast L)).filter isFilled := rfl

end Enough

section Lowered

variable {L} {sentence : Text}

/-- How the lower case of a text begins. -/
theorem lowerFrom_append (before x y : Text) :
    ∃ s, L.lowerFrom before (x ++ y) = s ++ L.lowerFrom (x.reverse ++ before) y ∧
      ((∀ c ∈ x, KeepsLength L c) → Utf8.len s = Utf8.len x) ∧
      ('Σ' ∈ x → 'σ' ∈ s ∨ 'ς' ∈ s) ∧ ('Σ' ∉ x → s = x.flatMap L.lower) := by
  induction x generalizing before with
  | nil => exact ⟨[], rfl, fun _ => rfl, fun h => absurd h List.not_mem_nil, fun _ => rfl⟩
  | cons c x ih =>
      obtain ⟨s, hs, hlen, hsigma, hplain⟩ := ih (c :: before)
      have htail : L.lowerFrom (c :: before) (x ++ y) =
          s ++ L.lowerFrom ((c :: x).reverse ++ before) y := by
        rw [hs, List.reverse_cons, List.append_assoc]
        rfl
      rcases eq_or_ne c 'Σ' with rfl | hc
      · obtain ⟨d, hd, hfirst⟩ : ∃ d, (d = 'σ' ∨ d = 'ς') ∧
            L.lowerFrom before ('Σ' :: (x ++ y)) = [d] ++ L.lowerFrom ('Σ' :: before) (x ++ y) := by
          rw [Letters.lowerFrom, if_pos rfl]
          split
          · exact ⟨'ς', .inr rfl, rfl⟩
          · exact ⟨'σ', .inl rfl, rfl⟩
        refine ⟨[d] ++ s, ?_, fun hkeep => ?_, fun _ => ?_, fun h => absurd List.mem_cons_self h⟩
        · rw [List.cons_append, hfirst, htail, List.append_assoc]
        · have hwidth : Utf8.len [d] = Utf8.len ['Σ'] := by rcases hd with rfl | rfl <;> rfl
          rw [Utf8.len_append, hlen (List.forall_mem_cons.mp hkeep).2, hwidth, ← Utf8.len_append]
          rfl
        · rcases hd with rfl | rfl
          · exact .inl List.mem_cons_self
          · exact .inr List.mem_cons_self
      · refine ⟨L.lower c ++ s, ?_, fun hkeep => ?_, fun h => ?_, fun h => ?_⟩
        · rw [List.cons_append, Letters.lowerFrom, if_neg hc, htail, List.append_assoc]
        · obtain ⟨hfirst, hrest⟩ := List.forall_mem_cons.mp hkeep
          rw [Utf8.len_append, hlen hrest, hfirst.resolve_left hc, ← Utf8.len_append]
          rfl
        · rcases List.mem_cons.mp h with rfl | hx
          · exact absurd rfl hc
          · exact (hsigma hx).imp (List.mem_append_right _) (List.mem_append_right _)
        · rw [hplain fun hx => h (List.mem_cons_of_mem c hx)]
          rfl

/-- A text without a capital sigma is lowered character by character. -/
theorem lowerFrom_of_plain {x : Text} (h : 'Σ' ∉ x) (before y : Text) :
    L.lowerFrom before (x ++ y) = x.flatMap L.lower ++ L.lowerFrom (x.reverse ++ before) y := by
  obtain ⟨s, hs, _, _, hplain⟩ := lowerFrom_append (L := L) before x y
  rw [hs, hplain h]

theorem mem_contrastCuts_iff {pos len : Nat} :
    (pos, len) ∈ contrastCuts L sentence ↔ ∃ word ∈ contrastWords, ∃ before after,
      L.toLowercase sentence = before ++ word ++ after ∧ Text.Reached word before ∧
        pos = Utf8.len before ∧ len = Utf8.len word := by
  have hne : ∀ word ∈ contrastWords, word ≠ [] := by decide
  rw [contrastCuts, List.mem_insertionSort, List.mem_flatMap]
  refine exists_congr fun word => and_congr_right fun hword => ?_
  simp only [List.mem_map, Prod.exists, Prod.mk.injEq, Text.mem_occurrences_iff (hne word hword)]
  constructor
  · rintro ⟨_, after, ⟨before, hlower, hreached, rfl⟩, rfl, rfl⟩
    exact ⟨before, after, hlower, hreached, Utf8.len_reverse before, rfl⟩
  · rintro ⟨before, after, hlower, hreached, rfl, rfl⟩
    exact ⟨before.reverse, after, ⟨before, hlower, hreached, rfl⟩, Utf8.len_reverse before, rfl⟩

/-- A cut takes out a contrast word of a sentence whose characters keep their length. -/
theorem isContrast_of_mem {pos len : Nat} (hkeep : ∀ c ∈ sentence, KeepsLength L c)
    (hcut : (pos, len) ∈ contrastCuts L sentence)
    (hfirst : Utf8.isCharBoundary sentence pos = true)
    (hlast : Utf8.isCharBoundary sentence (pos + len) = true) :
    IsContrast L (Utf8.slice sentence pos (pos + len)) := by
  obtain ⟨a, w, b, hsentence, ha, hw⟩ := exists_of_cut (List.nil_append sentence).symm
    (Nat.zero_le pos) hfirst hlast
  rw [List.nil_append] at ha
  have hslice : Utf8.slice sentence pos (pos + len) = w := by
    rw [hsentence, ← ha, ← hw, Utf8.slice_append]
  rw [hslice]
  obtain ⟨word, hword, before, after, hlower, _, rfl, rfl⟩ := mem_contrastCuts_iff.mp hcut
  have hkept : (∀ c ∈ a, KeepsLength L c) ∧ ∀ c ∈ w, KeepsLength L c := by
    rw [hsentence] at hkeep
    constructor
    · exact fun c hc => hkeep c (List.mem_append_left b (List.mem_append_left w hc))
    · exact fun c hc => hkeep c (List.mem_append_left b (List.mem_append_right a hc))
  obtain ⟨s, hs, hslen, _, _⟩ := lowerFrom_append (L := L) [] a (w ++ b)
  obtain ⟨u, hu, hulen, hsigma, hplain⟩ := lowerFrom_append (L := L) (a.reverse ++ []) w b
  rw [Letters.toLowercase, hsentence, List.append_assoc, hs, hu, List.append_assoc] at hlower
  obtain ⟨_, hrest⟩ := Utf8.append_inj hlower ((hslen hkept.1).trans ha)
  obtain ⟨rfl, _⟩ := Utf8.append_inj hrest ((hulen hkept.2).trans hw)
  -- No contrast word has a sigma.
  have hlatin : ∀ word ∈ contrastWords, 'σ' ∉ word ∧ 'ς' ∉ word := by decide
  have hnone : 'Σ' ∉ w := fun h => (hsigma h).elim (hlatin u hword).1 (hlatin u hword).2
  have hwhole := lowerFrom_of_plain (L := L) hnone [] []
  rw [List.append_nil, Letters.lowerFrom, List.append_nil, ← hplain hnone] at hwhole
  rwa [IsContrast, Letters.toLowercase, hwhole]

theorem cutsFit_of_keepsLength (hkeep : ∀ c ∈ sentence, KeepsLength L c) {start : Nat}
    {cuts : List (Nat × Nat)} (hcuts : ∀ cut ∈ cuts, cut ∈ contrastCuts L sentence) :
    CutsFit L sentence start cuts := by
  induction cuts generalizing start with
  | nil => trivial
  | cons cut cuts ih =>
      obtain ⟨pos, len⟩ := cut
      obtain ⟨hcut, hrest⟩ := List.forall_mem_cons.mp hcuts
      rw [CutsFit]
      split
      · next htaken =>
          simp only [Bool.and_eq_true] at htaken
          exact ⟨isContrast_of_mem hkeep hcut htaken.1.2 htaken.2, ih hrest⟩
      · exact ih hrest

theorem mem_of_mem_sentencesFrom {begun text sentence : Text} {c : Char}
    (h : sentence ∈ sentencesFrom begun text) (hc : c ∈ sentence) : c ∈ begun ++ text := by
  induction text generalizing begun with
  | nil =>
      rw [sentencesFrom, List.mem_singleton] at h
      rwa [List.append_nil, ← h]
  | cons d text ih =>
      rw [sentencesFrom] at h
      split at h
      · rcases List.mem_cons.mp h with rfl | h
        · exact List.mem_append_left _ hc
        · exact List.mem_append_right _ (List.mem_cons_of_mem d (ih h))
      · rw [List.append_cons]
        exact ih h

end Lowered

section Moved

variable {L}

/-- An ASCII character that is in no gap and no white space, and that has no case to lose. -/
def Ordinary (c : Char) : Prop :=
  c.toNat < 0x80 ∧ c.toLower = c ∧ Text.isWhitespace c = false ∧
    c ∉ ['\n', ';', '.', '!', '?'] ∧ ∀ word ∈ contrastWords, c ∉ word

instance (c : Char) : Decidable (Ordinary c) := by unfold Ordinary; infer_instance

theorem endsStatement_eq_false {c : Char} (h : c ∉ ['\n', ';', '.', '!', '?'])
    (next : Option Char) : endsStatement c next = false := by
  simp only [List.mem_cons, List.not_mem_nil, or_false, not_or] at h
  obtain ⟨hline, hsemi, hdot, hbang, hquestion⟩ := h
  simp [endsStatement, hline, hsemi, hdot, hbang, hquestion]

theorem Ordinary.notMem_gap {c : Char} (h : Ordinary c) {rest left : Text}
    (hgap : IsGap L rest left) : c ∉ left := by
  obtain ⟨hascii, hlower, _, hmark, hwords⟩ := h
  rintro hc
  rcases hgap with hword | ⟨d, rfl, hend⟩
  · have hsigma : c ≠ 'Σ' := by
      rintro rfl
      exact absurd hascii (by decide)
    refine hwords _ hword ?_
    obtain ⟨a, b, rfl⟩ := List.append_of_mem hc
    obtain ⟨s, hs, _⟩ := lowerFrom_append (L := L) [] a (c :: b)
    rw [Letters.toLowercase, hs, Letters.lowerFrom, if_neg hsigma, (L.ascii c hascii).2.2, hlower]
    exact List.mem_append_right s List.mem_cons_self
  · obtain rfl := List.mem_singleton.mp hc
    rw [endsStatement_eq_false hmark] at hend
    exact absurd hend Bool.false_ne_true

theorem notMem_of_not_isFilled {c : Char} (hc : Text.isWhitespace c = false) {piece : Text}
    (h : isFilled piece = false) : c ∉ piece := by
  intro hmem
  have htrim : Text.trim piece = [] := by
    rwa [isFilled, Bool.not_eq_false', List.isEmpty_iff] at h
  have hdropped : c ∈ piece.dropWhile Text.isWhitespace := by
    rw [← List.takeWhile_append_dropWhile (p := Text.isWhitespace) (l := piece)] at hmem
    refine (List.mem_append.mp hmem).resolve_left fun htaken => ?_
    exact Bool.false_ne_true (hc.symm.trans (List.mem_takeWhile_imp htaken))
  rw [Text.trim, List.reverse_eq_nil_iff, List.dropWhile_eq_nil_iff] at htrim
  exact Bool.false_ne_true (hc.symm.trans (htrim c (List.mem_reverse.mpr hdropped)))

/-- A piece of white space holds no ordinary character. -/
theorem count_flatten_filter {c : Char} (h : Ordinary c) (pieces : List Text) :
    (pieces.filter isFilled).flatten.count c = pieces.flatten.count c := by
  induction pieces with
  | nil => rfl
  | cons piece pieces ih =>
      rw [List.flatten_cons, List.count_append, ← ih, List.filter_cons]
      split
      · rw [List.flatten_cons, List.count_append]
      · next hblank =>
          rw [List.count_eq_zero_of_not_mem
            (notMem_of_not_isFilled h.2.2.1 (Bool.eq_false_iff.mpr hblank)), Nat.zero_add]

/-- A text whose clauses keep it has its ordinary characters in them. -/
theorem KeepsText.count_eq {c : Char} (h : Ordinary c) {text : Text} (hkeep : KeepsText L text) :
    (clauses L text).flatten.count c = text.count c := by
  obtain ⟨pieces, hpared, hclauses⟩ := hkeep
  rw [hclauses, count_flatten_filter h, hpared.count_eq fun _ _ => h.notMem_gap]

/-- What stands behind a character that moves the cut. -/
def movedTail (n : Nat) : Text :=
  List.replicate n 'x' ++ " but ".toList ++ List.replicate n 'x'

theorem mem_movedTail {n : Nat} {c : Char} (h : c ∈ movedTail n) : c ∈ " butx".toList := by
  simp only [movedTail, List.mem_append, List.mem_replicate] at h
  rcases h with (⟨_, rfl⟩ | h) | ⟨_, rfl⟩
  · decide
  · revert c
    decide
  · decide

theorem length_movedTail (n : Nat) : (movedTail n).length = 2 * n + 5 := by
  simp only [movedTail, List.length_append, List.length_replicate]
  show n + 5 + n = 2 * n + 5
  omega

theorem sentencesFrom_of_unmarked {begun text : Text}
    (h : ∀ c ∈ text, c ∉ ['\n', ';', '.', '!', '?']) : sentencesFrom begun text = [begun ++ text] := by
  induction text generalizing begun with
  | nil => rw [sentencesFrom, List.append_nil]
  | cons c text ih =>
      obtain ⟨hc, hrest⟩ := List.forall_mem_cons.mp h
      rw [sentencesFrom, endsStatement_eq_false hc, if_neg Bool.false_ne_true, ih hrest,
        List.append_assoc]
      rfl

/-- The lower case of an ASCII text that is in lower case. -/
theorem lowerFrom_of_lower {text : Text} (h : ∀ c ∈ text, c.toNat < 0x80 ∧ c.toLower = c)
    (before : Text) : L.lowerFrom before text = text := by
  induction text generalizing before with
  | nil => rfl
  | cons c text ih =>
      obtain ⟨⟨hascii, hlower⟩, hrest⟩ := List.forall_mem_cons.mp h
      have hsigma : c ≠ 'Σ' := by
        rintro rfl
        exact absurd hascii (by decide)
      rw [Letters.lowerFrom, if_neg hsigma, (L.ascii c hascii).2.2, hlower, ih hrest]
      rfl

/-- The lower case of a moved tail is cut once. -/
theorem contrastCuts_moved {c : Char} (hsigma : c ≠ 'Σ') (hblank : ' ' ∉ L.lower c) (n : Nat) :
    contrastCuts L (c :: movedTail n) = [(Utf8.len (L.lower c) + n, 5)] := by
  have hlower : L.toLowercase (c :: movedTail n) =
      (L.lower c ++ List.replicate n 'x') ++ " but ".toList ++ List.replicate n 'x' := by
    have hplain : ∀ d ∈ movedTail n, d.toNat < 0x80 ∧ d.toLower = d := by
      have hletters : ∀ d ∈ " butx".toList, d.toNat < 0x80 ∧ d.toLower = d := by decide
      exact fun d hd => hletters d (mem_movedTail hd)
    rw [Letters.toLowercase, Letters.lowerFrom, if_neg hsigma, lowerFrom_of_lower hplain]
    simp only [movedTail, List.append_assoc]
  have hbefore : ' ' ∉ L.lower c ++ List.replicate n 'x' := by
    simp only [List.mem_append, List.mem_replicate, not_or]
    exact ⟨hblank, fun h => absurd h.2 (by decide)⟩
  have hafter : ' ' ∉ List.replicate n 'x' := fun h => hbefore (List.mem_append_right _ h)
  -- Behind its first blank the text has `but` and, after another blank, no word.
  have hnone : ∀ d w, d ≠ 'b' → d ≠ 'x' → ¬ ' ' :: d :: w <:+: L.toLowercase (c :: movedTail n) := by
    intro d w hb hx hin
    rw [hlower, List.append_assoc, Text.cons_infix_append_iff hbefore] at hin
    have hrest : ' ' :: d :: w <:+: ' ' :: List.replicate n 'x' := by
      refine ((List.infix_cons_iff.mp hin).resolve_left fun hstart => ?_)
        |> (Text.cons_infix_append_iff (a := "but".toList) (by decide)).mp
      exact hb (List.cons_prefix_cons.mp (List.cons_prefix_cons.mp hstart).2).1
    rcases List.infix_cons_iff.mp hrest with hstart | hlast
    · have hmem := (List.cons_prefix_cons.mp hstart).2.subset List.mem_cons_self
      exact hx (List.eq_of_mem_replicate hmem)
    · exact hafter (hlast.subset List.mem_cons_self)
  have hbut : Text.occurrences " but ".toList (L.toLowercase (c :: movedTail n)) =
      [((L.lower c ++ List.replicate n 'x').reverse ++ [], List.replicate n 'x')] := by
    have hclean : Text.Clean " but ".toList (L.lower c ++ List.replicate n 'x') :=
      Text.clean_of_notMem hbefore
    rw [hlower, Text.occurrences, Text.occurrencesFrom_append (by decide) hclean,
      Text.occurrencesFrom_of_absent (by decide)]
    exact fun h => hafter (h.subset List.mem_cons_self)
  have hwhile : Text.occurrences " while ".toList (L.toLowercase (c :: movedTail n)) = [] :=
    Text.occurrencesFrom_of_absent (by decide) (hnone 'w' _ (by decide) (by decide)) []
  have hwhereas : Text.occurrences " whereas ".toList (L.toLowercase (c :: movedTail n)) = [] :=
    Text.occurrencesFrom_of_absent (by decide) (hnone 'w' _ (by decide) (by decide)) []
  have hlength : Utf8.len (List.replicate n 'x') = n := by
    rw [Utf8.len_of_ascii, List.length_replicate]
    intro d hd
    rw [List.eq_of_mem_replicate hd]
    decide
  rw [contrastCuts, contrastWords]
  simp only [List.map_cons, List.map_nil, List.flatMap_cons, List.flatMap_nil, hbut, hwhile,
    hwhereas, List.append_nil, List.insertionSort_cons, List.insertionSort_nil,
    List.orderedInsert_nil, Utf8.len_reverse, Utf8.len_append, hlength]
  rfl

/-- A sentence with one cut is two parts. -/
theorem cutAt_singleton (p r q : Text) :
    cutAt (p ++ r ++ q) 0 [(Utf8.len p, Utf8.len r)] = [p, q] := by
  have hfirst : Utf8.isCharBoundary (p ++ r ++ q) (Utf8.len p) = true :=
    Utf8.isCharBoundary_iff.mpr ⟨p, r ++ q, by rw [List.append_assoc], rfl⟩
  have hlast : Utf8.isCharBoundary (p ++ r ++ q) (Utf8.len p + Utf8.len r) = true :=
    Utf8.isCharBoundary_iff.mpr ⟨p ++ r, q, rfl, Utf8.len_append p r⟩
  have hp := Utf8.slice_append [] p (r ++ q)
  have hq := Utf8.slice_append (p ++ r) q []
  rw [List.nil_append, Utf8.len_nil, Nat.zero_add, ← List.append_assoc] at hp
  rw [List.append_nil, ← Utf8.len_append, Utf8.len_append p r] at hq
  rw [cutAt, hfirst, hlast, cutAt, hp, hq]
  rfl

/-- A cut that takes an `x` out of a moved text loses it. -/
theorem not_keepsText_of_cut {c : Char} {n k : Nat} (hc : c ∉ ['\n', ';', '.', '!', '?'])
    (hcuts : contrastCuts L (c :: movedTail n) = [(Utf8.len [c] + k, 5)]) (hk : k ≤ 2 * n)
    (hx : 'x' ∈ ((movedTail n).drop k).take 5) : ¬ KeepsText L (c :: movedTail n) := by
  intro hkeep
  obtain ⟨r, q, hdrop, hr⟩ : ∃ r q, (movedTail n).drop k = r ++ q ∧ r.length = 5 := by
    refine ⟨_, _, (List.take_append_drop 5 _).symm, ?_⟩
    rw [List.length_take, List.length_drop, length_movedTail]
    omega
  rw [hdrop, ← hr, List.take_left] at hx
  have htail : movedTail n = (movedTail n).take k ++ r ++ q := by
    rw [List.append_assoc, ← hdrop, List.take_append_drop]
  have hascii : ∀ d ∈ (movedTail n).take k ++ r ++ q, d.toNat < 0x80 := by
    have hletters : ∀ d ∈ " butx".toList, d.toNat < 0x80 := by decide
    rw [← htail]
    exact fun d hd => hletters d (mem_movedTail hd)
  have hfirst : Utf8.len (c :: (movedTail n).take k) = Utf8.len [c] + k := by
    have htaken : Utf8.len ((movedTail n).take k) = k := by
      rw [Utf8.len_of_ascii fun d hd => hascii d
        (List.mem_append_left q (List.mem_append_left r hd)), List.length_take, length_movedTail]
      omega
    rw [← List.singleton_append, Utf8.len_append, htaken]
  have hsecond : Utf8.len r = 5 := by
    rw [Utf8.len_of_ascii fun d hd => hascii d
      (List.mem_append_left q (List.mem_append_right _ hd)), hr]
  have hunmarked : ∀ d ∈ c :: movedTail n, d ∉ ['\n', ';', '.', '!', '?'] := by
    have hletters : ∀ d ∈ " butx".toList, d ∉ ['\n', ';', '.', '!', '?'] := by decide
    exact List.forall_mem_cons.mpr ⟨hc, fun d hd => hletters d (mem_movedTail hd)⟩
  have hparts : clauses L (c :: movedTail n) =
      [c :: (movedTail n).take k, q].filter isFilled := by
    have hcut := cutAt_singleton (c :: (movedTail n).take k) r q
    rw [hfirst, hsecond, List.cons_append, List.cons_append, ← htail] at hcut
    rw [clauses_eq_filter, sentencesFrom_of_unmarked hunmarked, List.nil_append,
      List.flatMap_singleton, splitContrast, hcuts, hcut]
  have hcount := hkeep.count_eq (c := 'x') (by decide)
  rw [hparts, count_flatten_filter (by decide)] at hcount
  have hwhole : (c :: movedTail n).count 'x' =
      (c :: (movedTail n).take k ++ r ++ q).count 'x' := by
    rw [List.cons_append, List.cons_append, ← htail]
  rw [hwhole, List.flatten_cons, List.flatten_singleton, List.count_append, List.count_append,
    List.count_append] at hcount
  have hpos := List.count_pos_iff.mpr hx
  omega

/-- The clauses of a moved text lack an `x`. -/
theorem not_keepsText_moved {c : Char} (hsigma : c ≠ 'Σ') (hblank : ' ' ∉ L.lower c)
    (hmoved : Utf8.len (L.lower c) ≠ Utf8.len [c]) :
    ∃ n, ¬ KeepsText L (c :: movedTail n) := by
  have hmark : c ∉ ['\n', ';', '.', '!', '?'] := by
    intro hc
    have hmarks : ∀ d ∈ ['\n', ';', '.', '!', '?'], d.toNat < 0x80 ∧ d.toLower = d := by decide
    obtain ⟨hascii, hlower⟩ := hmarks c hc
    exact hmoved (by rw [(L.ascii c hascii).2.2, hlower])
  rcases Nat.lt_or_gt_of_ne hmoved with hshort | hlong
  · -- The cut falls before the place it is meant for.
    obtain ⟨n, hn⟩ := Nat.exists_eq_add_of_lt hshort
    refine ⟨n + 1, not_keepsText_of_cut (k := 0) hmark ?_ (Nat.zero_le _) ?_⟩
    · rw [contrastCuts_moved hsigma hblank, hn]
      rfl
    · rw [List.drop_zero, movedTail, List.replicate_succ]
      exact List.mem_cons_self
  · -- The cut falls behind it.
    obtain ⟨n, hn⟩ := Nat.exists_eq_add_of_lt hlong
    refine ⟨n + 1, not_keepsText_of_cut (k := 2 * (n + 1)) hmark ?_ le_rfl ?_⟩
    · rw [contrastCuts_moved hsigma hblank, hn]
      refine congrArg (fun pos => [(pos, 5)]) ?_
      omega
    · have hend : movedTail (n + 1) =
          (List.replicate (n + 1) 'x' ++ " but ".toList ++ List.replicate n 'x') ++ ['x'] := by
        rw [movedTail, List.replicate_succ', List.append_assoc _ _ ['x']]
      have hlength := congrArg List.length hend
      rw [length_movedTail, List.length_append, List.length_singleton] at hlength
      rw [List.take_of_length_le (by rw [List.length_drop, length_movedTail]; omega), hend,
        List.drop_append_of_le_length (by omega)]
      exact List.mem_append_right _ List.mem_cons_self

end Moved

/-- The clauses are the text with only gaps and white space left out when the cuts fit, and that is
so in every text when each of its characters keeps its length in lower case. -/
theorem clausesWhen : ClausesWhen L where
  enough text h := by
    refine ⟨_, ?_, clauses_eq_filter text⟩
    have hpared := pared_sentences h
    rwa [List.nil_append] at hpared
  alphabet hblank s hs := by
    constructor
    · intro h c hc
      by_contra hkeep
      rw [KeepsLength, not_or] at hkeep
      have hspace : ' ' ∉ L.lower c := by
        intro hmem
        obtain rfl := hblank c hmem
        exact hkeep.2 (congrArg Utf8.len (L.ascii ' ' (by decide)).2.2)
      obtain ⟨n, hn⟩ := not_keepsText_moved hkeep.1 hspace hkeep.2
      refine hn (h _ (List.forall_mem_cons.mpr ⟨hc, fun d hd => hs d ?_⟩))
      have hletters : ∀ d ∈ " butx".toList, d.toNat < 0x80 := by decide
      exact hletters d (mem_movedTail hd)
    · intro h text htext
      have hfit : ∀ sentence ∈ sentencesFrom [] text,
          CutsFit L sentence 0 (contrastCuts L sentence) := by
        intro sentence hsentence
        refine cutsFit_of_keepsLength (fun c hc => h c (htext c ?_)) fun _ hcut => hcut
        simpa using mem_of_mem_sentencesFrom hsentence hc
      have hpared := pared_sentences hfit
      rw [List.nil_append] at hpared
      exact ⟨_, hpared, congrArg List.flatten (clauses_eq_filter text)⟩

section Example

/-- The tables with the dotted capital I, whose lower case takes another byte. -/
def dotted : Letters where
  isAlphabetic c := c.isAlpha || c = '\u0130'
  isNumeric := Char.isDigit
  isUppercase c := c.isUpper || c = '\u0130'
  lower c := if c = '\u0130' then ['i', '\u0307'] else [c.toLower]
  isCased c := c.isAlpha || c = '\u0130'
  isCaseIgnorable c := c = '\u0307'
  ascii c hc := by
    have hne : c ≠ '\u0130' := by
      rintro rfl
      exact absurd hc (by decide)
    simp only [hne, decide_false, Bool.or_false, if_false, and_self]
  blank c hc := by
    obtain ⟨halpha, hnumeric, hlower, _, _⟩ := Letters.asciiOnly.blank c hc
    have hne : c ≠ '\u0130' := by
      rintro rfl
      exact absurd hc (by decide)
    have hdot : c ≠ '\u0307' := by
      rintro rfl
      exact absurd hc (by decide)
    refine ⟨?_, hnumeric, ?_, ?_, decide_eq_false hdot⟩
    · rw [decide_eq_false hne, Bool.or_false]
      exact halpha
    · rw [if_neg hne]
      exact hlower
    · rw [decide_eq_false hne, Bool.or_false]
      exact halpha

/-- The first letter of `no` is cut off with the contrast word. -/
theorem negator_cut : ¬ (∀ text, KeepsText dotted text) := by
  intro h
  have hcount := (h "\u0130 but no budget is set".toList).count_eq (c := 'n') (by decide)
  revert hcount
  decide

end Example

end Genaryx.Copilot
