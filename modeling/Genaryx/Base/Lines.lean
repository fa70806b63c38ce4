import Genaryx.Base.Framing
import Genaryx.Base.Utf8
import Mathlib.Data.List.TakeWhile

/-!
# Lines of a file

Lines with a newline after each one, as bytes and as text, and the start of one more line
after them.
-/

namespace Genaryx

namespace Base.Framing

variable {β : Type*} {sep : β}

/-- Frames with a separator after each one. -/
def terminated (sep : β) (frames : List (List β)) : List β := frames.flatMap (· ++ [sep])

theorem terminated_concat (frames : List (List β)) (frame : List β) :
    terminated sep (frames ++ [frame]) = terminated sep frames ++ (frame ++ [sep]) := by
  simp [terminated]

/-- Terminated frames and the start of one more are split into just these. -/
theorem delimited_split_terminated [DecidableEq β] {frames : List (List β)}
    {torn : List β} (hframes : ∀ frame ∈ frames, sep ∉ frame) (htorn : sep ∉ torn) :
    (delimited sep).split (terminated sep frames ++ torn) = (frames, torn) := by
  induction frames with
  | nil => exact delimited_split_of_not_mem htorn
  | cons frame frames ih =>
      obtain ⟨hframe, hrest⟩ := List.forall_mem_cons.mp hframes
      have hcons : terminated sep (frame :: frames) ++ torn =
          frame ++ sep :: (terminated sep frames ++ torn) := by
        simp [terminated]
      rw [hcons, delimited_split_append_cons hframe, ih hrest]

end Base.Framing

open Base

namespace Text

/-- What `str::lines` makes of one line that ends in a newline: a carriage return before it
goes as well. -/
def stripCarriageReturn (line : Text) : Text :=
  if line.getLast? = some '\r' then line.dropLast else line

/-- `str::lines`: a last line counts without its newline, if it is not empty. -/
def lines (t : Text) : List Text :=
  let parts := (Framing.delimited '\n').split t
  parts.1.map stripCarriageReturn ++ if parts.2 = [] then [] else [parts.2]

/-- Lines without control characters are read back from their text. -/
theorem lines_terminated {ts : List Text} (h : ∀ t ∈ ts, ∀ c ∈ t, 0x20 ≤ c.toNat) :
    lines (Framing.terminated '\n' ts) = ts := by
  have hclean : ∀ t ∈ ts, '\n' ∉ t := fun t ht hmem => absurd (h t ht _ hmem) (by decide)
  have hsplit := Framing.delimited_split_terminated hclean (List.not_mem_nil (a := '\n'))
  rw [List.append_nil] at hsplit
  have hstrip : ∀ t ∈ ts, stripCarriageReturn t = t := by
    intro t ht
    refine if_neg fun hlast => ?_
    exact absurd (h t ht _ (List.mem_of_getLast? hlast)) (by decide)
  rw [lines, hsplit, if_pos rfl, List.append_nil, List.map_congr_left hstrip, List.map_id']

theorem stripCarriageReturn_of_notMem {line : Text} (h : '\r' ∉ line) :
    stripCarriageReturn line = line :=
  if_neg fun hlast => h (List.mem_of_getLast? hlast)

/-- A carriage return at the end of a text is one at the end of its last part. -/
theorem stripCarriageReturn_append {a : Text} (ha : a.getLast? ≠ some '\r') (b : Text) :
    stripCarriageReturn (a ++ b) = a ++ stripCarriageReturn b := by
  cases b with
  | nil =>
      rw [List.append_nil, stripCarriageReturn, if_neg ha]
      exact (List.append_nil a).symm
  | cons c b =>
      have hlast : (a ++ c :: b).getLast? = (c :: b).getLast? :=
        List.getLast?_append_of_ne_nil a (List.cons_ne_nil c b)
      rw [stripCarriageReturn, hlast, stripCarriageReturn]
      split
      · exact List.dropLast_append_of_ne_nil (List.cons_ne_nil c b)
      · rfl

/-- A text that ends in a newline keeps its lines whatever follows. -/
theorem lines_append_newline (a b : Text) :
    lines (a ++ '\n' :: b) = lines (a ++ ['\n']) ++ lines b := by
  have hrest : ((Framing.delimited '\n').split (a ++ ['\n'])).2 = [] := by
    have hspec := Framing.delimited_split_spec '\n' (a ++ ['\n'])
    have hnone := (Framing.delimited '\n').next_split_rest (a ++ ['\n'])
    rcases List.eq_nil_or_concat ((Framing.delimited '\n').split (a ++ ['\n'])).2 with
      hnil | ⟨init, c, hconcat⟩
    · exact hnil
    · rw [hconcat, List.concat_eq_append] at hspec hnone
      have hlast : '\n' = c := by
        have hends := congrArg List.getLast? hspec
        rw [List.getLast?_concat, ← List.append_assoc, List.getLast?_concat] at hends
        exact Option.some.inj hends
      have hfind := Option.map_eq_none_iff.mp hnone
      rw [List.findIdx?_eq_none_iff] at hfind
      have hno := hfind c (List.mem_append_right _ List.mem_cons_self)
      exact absurd hlast.symm (of_decide_eq_false hno)
  have hsplit := (Framing.delimited '\n').split_append (a ++ ['\n']) b
  rw [hrest, List.nil_append, List.append_assoc, List.singleton_append] at hsplit
  rw [lines, hsplit, lines, lines, hrest]
  simp

theorem lines_nil : lines [] = [] := by
  rw [lines, Framing.delimited_split_of_not_mem List.not_mem_nil]
  rfl

/-- The first line ends at the first newline. -/
theorem lines_cons_newline {a : Text} (ha : '\n' ∉ a) (b : Text) :
    lines (a ++ '\n' :: b) = stripCarriageReturn a :: lines b := by
  rw [lines, Framing.delimited_split_append_cons ha]
  rfl

/-- Lines with a newline after each one come before the lines of the rest. -/
theorem lines_terminated_append {ts : List Text} (hts : ∀ t ∈ ts, '\n' ∉ t) (b : Text) :
    lines (Framing.terminated '\n' ts ++ b) = ts.map stripCarriageReturn ++ lines b := by
  induction ts with
  | nil => rfl
  | cons t ts ih =>
      obtain ⟨ht, hrest⟩ := List.forall_mem_cons.mp hts
      have hcons : Framing.terminated '\n' (t :: ts) ++ b =
          t ++ '\n' :: (Framing.terminated '\n' ts ++ b) := by
        simp [Framing.terminated]
      rw [hcons, lines_cons_newline ht, ih hrest]
      rfl

/-- A text with something else than whitespace in it does not trim to nothing. -/
theorem trim_ne_nil {t : Text} {c : Char} (hmem : c ∈ t) (hc : isWhitespace c = false) :
    trim t ≠ [] := by
  have hdrop : ∀ s : Text, c ∈ s → c ∈ s.dropWhile isWhitespace := by
    intro s hs
    rw [← List.takeWhile_append_dropWhile (p := isWhitespace) (l := s)] at hs
    refine (List.mem_append.mp hs).resolve_left fun htake => ?_
    rw [List.mem_takeWhile_imp htake] at hc
    cases hc
  refine List.ne_nil_of_mem (a := c) ?_
  rw [trim, List.mem_reverse]
  exact hdrop _ (List.mem_reverse.mpr (hdrop t hmem))

end Text

namespace Utf8

/-- Only the newline is encoded with its byte. -/
theorem newline_notMem_encodeChar {c : Char} (h : c ≠ '\n') : (10 : UInt8) ∉ encodeChar c := by
  have hc : c.toNat ≠ 10 := fun heq => h (Char.toNat_inj.mp heq)
  have hrange := char_range c
  have hbyte : ∀ n : Nat, n < 256 → n ≠ 10 → (10 : UInt8) ≠ UInt8.ofNat n := by
    intro n hn hne heq
    have hnat := congrArg UInt8.toNat heq
    rw [toNat_byte hn] at hnat
    exact hne hnat.symm
  simp only [encodeChar]
  split_ifs <;> simp only [List.mem_cons, List.not_mem_nil, or_false, not_or] <;>
    (repeat' constructor) <;> exact hbyte _ (by omega) (by omega)

theorem newline_notMem_encode {t : Text} (h : '\n' ∉ t) : (10 : UInt8) ∉ encode t := by
  intro hmem
  obtain ⟨c, hc, hbyte⟩ := List.mem_flatMap.mp hmem
  exact newline_notMem_encodeChar (fun heq => h (heq ▸ hc)) hbyte

/-- The bytes of terminated lines are the terminated bytes of the lines. -/
theorem encode_terminated (ts : List Text) :
    encode (Framing.terminated '\n' ts) = Framing.terminated 10 (ts.map encode) := by
  induction ts with
  | nil => rfl
  | cons t ts ih =>
      have hcons : Framing.terminated '\n' (t :: ts) = t ++ '\n' :: Framing.terminated '\n' ts := by
        simp [Framing.terminated]
      rw [hcons, encode_append, encode_cons, ih]
      simp [Framing.terminated, encodeChar]

end Utf8

end Genaryx
