import Genaryx.Base.Text
import Mathlib.Data.List.Chain

/-!
# Digests

Digests are written in lowercase hexadecimal. Results take the digest as a parameter, with
collision freedom as a hypothesis where they need it, and `plainDigest` is one that meets
the hypothesis and can be evaluated.
-/

namespace Genaryx

/-- Lowercase hexadecimal, two digits for each byte. -/
def hexLower (bytes : List UInt8) : Text :=
  bytes.flatMap fun b => [Nat.digitChar (b.toNat / 16), Nat.digitChar (b.toNat % 16)]

/-- What is written of a byte is two hexadecimal digits. -/
theorem forall_mem_hexLower {p : Char → Prop} (h : ∀ n < 16, p (Nat.digitChar n))
    (bytes : List UInt8) : ∀ c ∈ hexLower bytes, p c := by
  intro c hc
  obtain ⟨b, _, hb⟩ := List.mem_flatMap.mp hc
  have hbyte := b.toNat_lt
  simp only [List.mem_cons, List.not_mem_nil, or_false] at hb
  rcases hb with rfl | rfl
  · exact h _ (by omega)
  · exact h _ (by omega)

theorem length_hexLower (bytes : List UInt8) : (hexLower bytes).length = 2 * bytes.length := by
  induction bytes with
  | nil => rfl
  | cons b bytes ih =>
      simp only [hexLower, List.flatMap_cons, List.length_append, List.length_cons,
        List.length_nil] at ih ⊢
      omega

theorem digitChar_inj {m n : Nat} (hm : m < 16) (hn : n < 16)
    (h : Nat.digitChar m = Nat.digitChar n) : m = n := by
  have hall : ∀ a b : Fin 16, Nat.digitChar a = Nat.digitChar b → a = b := by decide
  exact congrArg Fin.val (hall ⟨m, hm⟩ ⟨n, hn⟩ h)

theorem hexLower_injective : Function.Injective hexLower := by
  intro xs
  induction xs with
  | nil =>
      intro ys h
      cases ys with
      | nil => rfl
      | cons y ys => simp [hexLower] at h
  | cons x xs ih =>
      intro ys h
      cases ys with
      | nil => simp [hexLower] at h
      | cons y ys =>
          have hx := x.toNat_lt
          have hy := y.toNat_lt
          simp only [hexLower, List.flatMap_cons, List.cons_append, List.nil_append,
            List.cons.injEq] at h
          obtain ⟨hhigh, hlow, hrest⟩ := h
          have hdiv := digitChar_inj (by omega) (by omega) hhigh
          have hmod := digitChar_inj (by omega) (by omega) hlow
          have hbyte : x = y := UInt8.toNat_inj.mp (by omega)
          rw [hbyte, ih hrest]

/-- The bytes themselves as characters, in place of their SHA-256. -/
def plainDigest (bytes : List UInt8) : Text := bytes.map fun b => Char.ofNat b.toNat

theorem plainDigest_injective : Function.Injective plainDigest := by
  apply List.map_injective_iff.mpr
  intro a b h
  have hback : ∀ c : UInt8, (Char.ofNat c.toNat).toNat = c.toNat := fun c => by
    have hlt := c.toNat_lt
    have hvalid : c.toNat.isValidChar := Or.inl (by omega)
    rw [Char.ofNat, dif_pos hvalid]
    rfl
  have hnat := congrArg Char.toNat h
  rw [hback, hback] at hnat
  exact UInt8.toNat_inj.mp hnat

end Genaryx

/-!
## Hash chains

Every item of a chain names the hash of the item before it, and only the first one names
none.
-/

namespace Genaryx.Base

/-- What an item names as the one before it, and its own hash. -/
structure Linking (α H : Type*) where
  prev : α → Option H
  hash : α → Option H

namespace Linking

variable {α H : Type*} (L : Linking α H)

/-- An item names the hash that the item before it has. -/
def Follows (x y : α) : Prop := L.prev y = L.hash x ∧ (L.hash x).isSome = true

instance [DecidableEq H] (x y : α) : Decidable (L.Follows x y) := by
  unfold Follows
  infer_instance

/-- The items are one chain from its head on. -/
def Chained (xs : List α) : Prop :=
  (∀ x ∈ xs.head?, L.prev x = none) ∧ xs.IsChain L.Follows

instance [DecidableEq H] (xs : List α) : Decidable (L.Chained xs) := by
  unfold Chained
  infer_instance

/-- What an item put after the others has to name. -/
def head (xs : List α) : Option H := xs.getLast?.bind L.hash

variable {L}

theorem chained_nil : L.Chained [] := ⟨by simp, List.isChain_nil⟩

theorem head_concat (xs : List α) (x : α) : L.head (xs ++ [x]) = L.hash x := by
  simp [head]

/-- A chain stays one when an item that names its head is put after it. -/
theorem Chained.concat {xs : List α} {x : α} (h : L.Chained xs) (hprev : L.prev x = L.head xs)
    (hlast : ∀ y ∈ xs.getLast?, (L.hash y).isSome = true) : L.Chained (xs ++ [x]) := by
  refine ⟨?_, List.isChain_append.mpr ⟨h.2, List.isChain_singleton x, ?_⟩⟩
  · cases xs with
    | nil =>
        intro y hy
        cases Option.mem_some_iff.mp hy
        exact hprev
    | cons y ys => exact h.1
  · intro y hy z hz
    cases Option.mem_some_iff.mp hz
    refine ⟨?_, hlast y hy⟩
    rw [hprev, head, Option.mem_def.mp hy, Option.bind_some]

end Linking

end Genaryx.Base
