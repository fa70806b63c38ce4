import Genaryx.Base.Letters
import Genaryx.Base.Replace

/-!
# The gateway key in an error

Every error out of a provider has the gateway key replaced wherever its text carries it. What
stands in for the key can carry it too, or form it anew with the text beside it.

## Implementation notes

The marker has one blank, which no key holds, so a key stands on one side of it.
-/

namespace Genaryx.Copilot

/-- `u8::is_ascii_graphic`, of a character: one that is not ASCII has no such byte. -/
def isAsciiGraphic (c : Char) : Bool := 0x21 ≤ c.toNat && c.toNat ≤ 0x7E

/-- The longest client key accepted. -/
def maxFuseKeyBytes : Nat := 1024

/-- The gateway client key. -/
structure FuseKey where
  value : Text
  nonempty : value ≠ []
  short : Utf8.len value ≤ maxFuseKeyBytes
  graphic : ∀ c ∈ value, isAsciiGraphic c = true

/-- Accept a key exactly as given. -/
def FuseKey.new (value : Text) : Except Text FuseKey :=
  if hempty : value = [] then .error "it is empty".toList
  else if hlong : maxFuseKeyBytes < Utf8.len value then
    .error "it is longer than 1024 bytes".toList
  else if hgraphic : ∀ c ∈ value, isAsciiGraphic c = true then
    .ok ⟨value, hempty, Nat.not_lt.mp hlong, hgraphic⟩
  else
    .error ("it holds a character other than printable ASCII (a space, a control ".toList ++
      "character or a non-ASCII byte)".toList)

/-- What stands in for the client key wherever error text would carry it. -/
def fuseKeyRedacted : Text := "[x-fuse-key redacted]".toList

/-- A text with every occurrence of the key replaced. -/
def redactFuseKey (text : Text) (key : FuseKey) : Text :=
  Text.replace key.value fuseKeyRedacted text

/-- Why a provider has no answer. -/
inductive ProviderError
  | nonLocalEndpointRefused (url : Text)
  | config (text : Text)
  | transport (text : Text)
  | http (status : UInt16) (body : Text)
  | decode (text : Text)
  deriving DecidableEq

namespace ProviderError

/-- The text an error carries. -/
def text : ProviderError → Text
  | nonLocalEndpointRefused url => url
  | config text => text
  | transport text => text
  | http _ body => body
  | decode text => text

/-- The same error with another text. -/
def mapText (f : Text → Text) : ProviderError → ProviderError
  | nonLocalEndpointRefused url => nonLocalEndpointRefused (f url)
  | config text => config (f text)
  | transport text => transport (f text)
  | http status body => http status (f body)
  | decode text => decode (f text)

/-- The same error with the client key replaced wherever its text carries it. -/
def withoutFuseKey (e : ProviderError) : Option FuseKey → ProviderError
  | none => e
  | some key => e.mapText (redactFuseKey · key)

theorem text_withoutFuseKey (e : ProviderError) (key : FuseKey) :
    (e.withoutFuseKey (some key)).text = redactFuseKey e.text key := by
  cases e <;> rfl

end ProviderError

/-- The first word of the marker. -/
def markerHead : Text := "[x-fuse-key".toList

/-- Its last word. -/
def markerTail : Text := "redacted]".toList

theorem fuseKeyRedacted_eq : fuseKeyRedacted = markerHead ++ ' ' :: markerTail := by decide

/-- The pieces of a text, with the words of the marker that come to stand beside them. -/
def beside (before : Text) : List Text → List Text
  | [] => []
  | [piece] => [before ++ piece]
  | piece :: next :: rest => (before ++ piece ++ markerHead) :: beside markerTail (next :: rest)

namespace FuseKey

variable (key : FuseKey)

/-- The key is in no piece of the text between its occurrences, with the words of the marker that
come to stand beside the piece. -/
def FormsNowhere (text : Text) : Prop :=
  ∀ part ∈ beside [] (Text.cut key.value text), ¬ key.value <:+: part

/-- The key is no part of the marker and does not begin as the marker ends. Where it ends as the
marker begins, what it begins with and the key after that hold the key before. -/
structure Distinct : Prop where
  apart : ¬ key.value <:+: fuseKeyRedacted
  tail : ∀ s, s ≠ [] → s <:+ markerTail → ¬ s <+: key.value
  head : ∀ u v, key.value = u ++ v → u ≠ [] → v ≠ [] → v <+: markerHead →
    ¬ Text.Clean key.value u

/-- When an error does not show the key. -/
structure HiddenWhen : Prop where
  /-- In one text. -/
  text : ∀ e : ProviderError,
    ¬ key.value <:+: (e.withoutFuseKey (some key)).text ↔ key.FormsNowhere e.text
  /-- In every text. -/
  always : (∀ e : ProviderError, ¬ key.value <:+: (e.withoutFuseKey (some key)).text) ↔
    key.Distinct

section Hidden

variable {key}

theorem blank_notMem : ' ' ∉ key.value := fun h => absurd (key.graphic ' ' h) (by decide)

/-- The key stands in the pieces with the marker between them when it stands in one of the parts
beside the blanks of the markers. -/
theorem infix_intercalate_iff (before : Text) {pieces : List Text} (hne : pieces ≠ []) :
    key.value <:+: before ++ fuseKeyRedacted.intercalate pieces ↔
      ∃ part ∈ beside before pieces, key.value <:+: part := by
  induction pieces generalizing before with
  | nil => exact absurd rfl hne
  | cons piece rest ih =>
      cases rest with
      | nil => simp [beside]
      | cons next rest =>
          have hjoined : before ++ fuseKeyRedacted.intercalate (piece :: next :: rest) =
              (before ++ piece ++ markerHead) ++
                ' ' :: (markerTail ++ fuseKeyRedacted.intercalate (next :: rest)) := by
            rw [List.intercalate_cons_cons, fuseKeyRedacted_eq]
            simp only [List.append_assoc, List.cons_append]
          rw [hjoined, Text.infix_append_cons_iff blank_notMem, ih _ (List.cons_ne_nil next rest),
            beside, List.exists_mem_cons_iff]

theorem infix_redact_iff (text : Text) :
    key.value <:+: redactFuseKey text key ↔
      ∃ part ∈ beside [] (Text.cut key.value text), key.value <:+: part := by
  rw [redactFuseKey, Text.replace_eq_intercalate]
  exact infix_intercalate_iff [] (Text.cutFrom_ne_nil [] 0 text)

/-- A part that ends a text holds no key that is distinct from the marker. -/
theorem Distinct.not_infix_last (h : key.Distinct) {piece : Text} (hpiece : ¬ key.value <:+: piece) :
    ¬ key.value <:+: markerTail ++ piece := by
  rw [Text.infix_append_iff]
  rintro (htail | hin | ⟨s, t, hst, hs, _, hsuffix, _⟩)
  · refine h.apart (htail.trans ?_)
    rw [fuseKeyRedacted_eq]
    exact ⟨markerHead ++ [' '], [], by simp⟩
  · exact hpiece hin
  · exact h.tail s hs hsuffix ⟨t, hst.symm⟩

/-- Nor does a part before an occurrence, whatever of the marker stands before it. -/
theorem Distinct.not_infix_head (h : key.Distinct) {before piece : Text}
    (hpiece : Text.Clean key.value piece) (hbefore : before <:+ markerTail)
    (hlast : ¬ key.value <:+: before ++ piece) :
    ¬ key.value <:+: before ++ piece ++ markerHead := by
  rw [Text.infix_append_iff]
  rintro (hin | hhead | ⟨u, v, huv, hu, hv, hsuffix, hprefixed⟩)
  · exact hlast hin
  · refine h.apart (hhead.trans ?_)
    rw [fuseKeyRedacted_eq]
    exact List.infix_append_left
  · rcases List.suffix_or_suffix_of_suffix hsuffix (List.suffix_append before piece) with
      ⟨x, rfl⟩ | ⟨s, rfl⟩
    · -- What the key begins with is in the piece, so the key is found in it before its end.
      refine h.head u v huv hu hv hprefixed fun a b hab => ?_
      have hlength := hpiece (x ++ a) b (by simp only [List.append_assoc] at hab ⊢; rw [hab])
      simpa using hlength
    · rcases eq_or_ne s [] with rfl | hs
      · exact h.head piece v huv hu hv hprefixed hpiece
      · have hstart : s <:+ before := by
          obtain ⟨x, hx⟩ := hsuffix
          rw [← List.append_assoc] at hx
          exact ⟨x, List.append_cancel_right hx⟩
        refine h.tail s hs (hstart.trans hbefore) ?_
        rw [huv, List.append_assoc]
        exact List.prefix_append s (piece ++ v)

/-- A key that is distinct from the marker is formed nowhere in what is left of a text. -/
theorem Distinct.formsNowhere (h : key.Distinct) (text : Text) {before : Text}
    (hbefore : before <:+ markerTail)
    (hlast : ∀ piece, ¬ key.value <:+: piece → ¬ key.value <:+: before ++ piece) :
    ∀ part ∈ beside before (Text.cut key.value text), ¬ key.value <:+: part := by
  induction hlength : text.length using Nat.strong_induction_on generalizing text before with
  | _ n ih =>
      rcases Text.cut_cases key.nonempty text with ⟨hnot, hcut⟩ | ⟨piece, rest, htext, hclean, hcut⟩
      · rw [hcut]
        exact List.forall_mem_singleton.mpr (hlast text hnot)
      · have hshorter : rest.length < n := by
          have hpos := List.length_pos_iff.mpr key.nonempty
          rw [← hlength, htext]
          simp only [List.length_append]
          omega
        obtain ⟨next, others, hrest⟩ := List.exists_cons_of_ne_nil
          (@Text.cutFrom_ne_nil key.value [] 0 rest)
        have hbeside : beside before (Text.cut key.value text) =
            (before ++ piece ++ markerHead) :: beside markerTail (Text.cut key.value rest) := by
          rw [hcut, Text.cut, hrest]
          rfl
        rw [hbeside]
        refine List.forall_mem_cons.mpr ⟨?_, ?_⟩
        · exact h.not_infix_head hclean hbefore (hlast piece (hclean.not_infix key.nonempty))
        · exact ih rest.length hshorter rest (List.suffix_refl markerTail)
            (fun p hp => h.not_infix_last hp) rfl

theorem clean_nil : Text.Clean key.value [] := fun a _ _ => Nat.zero_le a.length

/-- A key that is hidden in every text is distinct from the marker. -/
theorem distinct_of_hidden (h : ∀ text, ¬ key.value <:+: redactFuseKey text key) :
    key.Distinct := by
  have hparts : ∀ text, ∀ part ∈ beside [] (Text.cut key.value text), ¬ key.value <:+: part :=
    fun text part hpart hin => h text ((infix_redact_iff text).mpr ⟨part, hpart, hin⟩)
  have hnil : Text.cut key.value [] = [[]] :=
    Text.cut_of_not_infix fun hin => key.nonempty (List.eq_nil_of_infix_nil hin)
  constructor
  · intro hin
    have hcut : Text.cut key.value key.value = [[], []] := by
      have hfirst := Text.cut_append key.nonempty clean_nil []
      rwa [List.nil_append, List.append_nil, hnil] at hfirst
    have hnone := hparts key.value
    rw [hcut] at hnone
    rw [fuseKeyRedacted_eq, Text.infix_append_cons_iff blank_notMem] at hin
    rcases hin with hhead | htail
    · exact hnone markerHead List.mem_cons_self hhead
    · exact hnone markerTail (List.mem_cons_of_mem _ List.mem_cons_self) htail
  · rintro s hs hsuffix ⟨p, hp⟩
    have hshort : ¬ key.value <:+: p := by
      intro hin
      have hlength := hin.length_le
      rw [← hp, List.length_append] at hlength
      have hpos := List.length_pos_iff.mpr hs
      omega
    have hcut : Text.cut key.value (key.value ++ p) = [[], p] := by
      have hfirst := Text.cut_append key.nonempty clean_nil p
      rwa [List.nil_append, Text.cut_of_not_infix hshort] at hfirst
    have hnone := hparts (key.value ++ p)
    rw [hcut] at hnone
    refine hnone (markerTail ++ p) (List.mem_cons_of_mem _ List.mem_cons_self) ?_
    obtain ⟨x, hx⟩ := hsuffix
    exact ⟨x, [], by rw [← hp, ← hx]; simp⟩
  · rintro u v huv _ _ ⟨x, hx⟩ hclean
    have hcut : Text.cut key.value (u ++ key.value) = [u, []] := by
      have hfirst := Text.cut_append key.nonempty hclean []
      rwa [List.append_nil, hnil] at hfirst
    have hnone := hparts (u ++ key.value)
    rw [hcut] at hnone
    refine hnone (u ++ markerHead) List.mem_cons_self ?_
    exact ⟨[], x, by rw [huv, ← hx]; simp⟩

end Hidden

/-- For every key that is accepted, an error does not show it when nothing but the marker and the
text beside it can form it, and no error shows it when it is distinct from the marker. -/
theorem hiddenWhen : key.HiddenWhen := by
  have htext (e : ProviderError) :
      ¬ key.value <:+: (e.withoutFuseKey (some key)).text ↔ key.FormsNowhere e.text := by
    rw [ProviderError.text_withoutFuseKey, infix_redact_iff]
    simp only [FormsNowhere, not_exists, not_and]
  refine ⟨htext, fun h => ?_, fun h e => ?_⟩
  · refine distinct_of_hidden fun text hin => h (.decode text) ?_
    rwa [ProviderError.text_withoutFuseKey]
  · rw [htext]
    exact h.formsNowhere e.text List.nil_suffix fun _ hp => hp

end FuseKey

section Example

/-- A key that begins as the marker ends. -/
def sampleKey : FuseKey := ⟨"]abc".toList, by decide, by decide, by decide⟩

/-- A gateway that echoes the key with more after it makes the error show the key again. -/
theorem key_formed_again :
    FuseKey.new "]abc".toList = .ok sampleKey ∧
      ¬ (∀ e : ProviderError, ¬ sampleKey.value <:+: (e.withoutFuseKey (some sampleKey)).text) := by
  refine ⟨rfl, fun h => ?_⟩
  refine h (.http 401 "unknown key ]abcabc".toList) ?_
  rw [← Text.contains_iff]
  decide

end Example

end Genaryx.Copilot
