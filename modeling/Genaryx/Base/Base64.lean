import Genaryx.Base.Utf8

/-!
# Base64

The standard alphabet with padding, read back strictly: a whole number of quads, padding only
at the end, and no bits left over. Results take base64 as a parameter with a round trip as a
hypothesis, and this is one that meets it.
-/

namespace Genaryx.Base64

def alphabet : Text := "ABCDEFGHIJKLMNOPQRSTUVWXYZabcdefghijklmnopqrstuvwxyz0123456789+/".toList

/-- The character of six bits. -/
def symbol (n : Nat) : Char := alphabet.getD n 'A'

/-- The six bits of a character. -/
def value (c : Char) : Option Nat := alphabet.findIdx? (· == c)

/-- Three bytes are four characters. -/
def encode : Bytes → Text
  | [] => []
  | [a] => [symbol (a.toNat / 4), symbol (a.toNat % 4 * 16), '=', '=']
  | [a, b] => [symbol (a.toNat / 4), symbol (a.toNat % 4 * 16 + b.toNat / 16),
      symbol (b.toNat % 16 * 4), '=']
  | a :: b :: c :: rest => symbol (a.toNat / 4) :: symbol (a.toNat % 4 * 16 + b.toNat / 16) ::
      symbol (b.toNat % 16 * 4 + c.toNat / 64) :: symbol (c.toNat % 64) :: encode rest

def decode : Text → Option Bytes
  | [] => some []
  | w :: x :: y :: z :: rest => do
      let w ← value w
      let x ← value x
      let first := UInt8.ofNat (w * 4 + x / 16)
      if y = '=' then
        if z = '=' ∧ rest = [] ∧ x % 16 = 0 then some [first] else none
      else
        let y ← value y
        let second := UInt8.ofNat (x % 16 * 16 + y / 4)
        if z = '=' then
          if rest = [] ∧ y % 4 = 0 then some [first, second] else none
        else
          let z ← value z
          (decode rest).map fun bytes => first :: second :: UInt8.ofNat (y % 4 * 64 + z) :: bytes
  | _ => none

theorem value_symbol {n : Nat} (h : n < 64) : value (symbol n) = some n := by
  have hall : ∀ k : Fin 64, value (symbol k) = some k.val := by decide +kernel
  exact hall ⟨n, h⟩

theorem symbol_mem {n : Nat} (h : n < 64) : symbol n ∈ alphabet := by
  have hlength : alphabet.length = 64 := congrArg List.length String.toList_ofList
  have hlt : n < alphabet.length := hlength ▸ h
  rw [symbol, ← List.getElem_eq_getD (h := hlt)]
  exact List.getElem_mem hlt

/-- No symbol is the pad, or stands for another one or after one in a URL. -/
theorem symbol_ne {n : Nat} (h : n < 64) :
    symbol n ≠ '=' ∧ symbol n ≠ '-' ∧ symbol n ≠ '_' ∧ symbol n ≠ '.' := by
  have hall : ∀ c ∈ alphabet, c ≠ '=' ∧ c ≠ '-' ∧ c ≠ '_' ∧ c ≠ '.' :=
    Text.forall_mem_literal (by decide)
  exact hall _ (symbol_mem h)

theorem symbol_ne_pad {n : Nat} (h : n < 64) : symbol n ≠ '=' := (symbol_ne h).1

/-- What was encoded is read back. -/
theorem decode_encode (bytes : Bytes) : decode (encode bytes) = some bytes := by
  have hbyte : ∀ (b : UInt8) (n : Nat), n = b.toNat → UInt8.ofNat n = b := fun b n h => by
    rw [h, UInt8.ofNat_toNat]
  fun_induction encode bytes with
  | case1 => rfl
  | case2 a =>
      have ha := a.toNat_lt
      have hfirst := hbyte a (a.toNat / 4 * 4 + a.toNat % 4 * 16 / 16) (by omega)
      have hlow : a.toNat % 4 * 16 % 16 = 0 := by omega
      simp only [decode, value_symbol (n := a.toNat / 4) (by omega),
        value_symbol (n := a.toNat % 4 * 16) (by omega), hlow, hfirst, Option.bind_eq_bind,
        Option.bind_some, if_true, and_self]
  | case3 a b =>
      have ha := a.toNat_lt
      have hb := b.toNat_lt
      have hfirst := hbyte a
        (a.toNat / 4 * 4 + (a.toNat % 4 * 16 + b.toNat / 16) / 16) (by omega)
      have hsecond := hbyte b
        ((a.toNat % 4 * 16 + b.toNat / 16) % 16 * 16 + b.toNat % 16 * 4 / 4) (by omega)
      have hlow : b.toNat % 16 * 4 % 4 = 0 := by omega
      simp only [decode, value_symbol (n := a.toNat / 4) (by omega),
        value_symbol (n := a.toNat % 4 * 16 + b.toNat / 16) (by omega),
        value_symbol (n := b.toNat % 16 * 4) (by omega),
        symbol_ne_pad (n := b.toNat % 16 * 4) (by omega), hlow, hfirst, hsecond,
        Option.bind_eq_bind, Option.bind_some, if_true, if_false, and_self]
  | case4 a b c rest ih =>
      have ha := a.toNat_lt
      have hb := b.toNat_lt
      have hc := c.toNat_lt
      have hfirst := hbyte a
        (a.toNat / 4 * 4 + (a.toNat % 4 * 16 + b.toNat / 16) / 16) (by omega)
      have hsecond := hbyte b ((a.toNat % 4 * 16 + b.toNat / 16) % 16 * 16 +
        (b.toNat % 16 * 4 + c.toNat / 64) / 4) (by omega)
      have hthird := hbyte c ((b.toNat % 16 * 4 + c.toNat / 64) % 4 * 64 + c.toNat % 64) (by omega)
      simp only [decode, value_symbol (n := a.toNat / 4) (by omega),
        value_symbol (n := a.toNat % 4 * 16 + b.toNat / 16) (by omega),
        value_symbol (n := b.toNat % 16 * 4 + c.toNat / 64) (by omega),
        value_symbol (n := c.toNat % 64) (by omega),
        symbol_ne_pad (n := b.toNat % 16 * 4 + c.toNat / 64) (by omega),
        symbol_ne_pad (n := c.toNat % 64) (by omega), hfirst, hsecond, hthird, ih,
        Option.bind_eq_bind, Option.bind_some, Option.map_some, if_false]

/-- What is so of every symbol and of the padding is so of every character. -/
theorem forall_mem_encode {p : Char → Prop} (hsymbol : ∀ n < 64, p (symbol n)) (hpad : p '=')
    (bytes : Bytes) : ∀ c ∈ encode bytes, p c := by
  fun_induction encode bytes with
  | case1 => simp
  | case2 a =>
      have ha := a.toNat_lt
      simp only [List.forall_mem_cons]
      exact ⟨hsymbol _ (by omega), hsymbol _ (by omega), hpad, hpad, List.forall_mem_nil _⟩
  | case3 a b =>
      have ha := a.toNat_lt
      have hb := b.toNat_lt
      simp only [List.forall_mem_cons]
      exact ⟨hsymbol _ (by omega), hsymbol _ (by omega), hsymbol _ (by omega), hpad,
        List.forall_mem_nil _⟩
  | case4 a b c rest ih =>
      have ha := a.toNat_lt
      have hb := b.toNat_lt
      have hc := c.toNat_lt
      simp only [List.forall_mem_cons]
      exact ⟨hsymbol _ (by omega), hsymbol _ (by omega), hsymbol _ (by omega),
        hsymbol _ (by omega), ih⟩

/-- Each three bytes, and what is left of them, are four characters. -/
theorem length_encode (bytes : Bytes) : (encode bytes).length = (bytes.length + 2) / 3 * 4 := by
  fun_induction encode bytes with
  | case1 => rfl
  | case2 a => simp only [List.length_cons, List.length_nil]
  | case3 a b => simp only [List.length_cons, List.length_nil]
  | case4 a b c rest ih =>
      simp only [List.length_cons, ih]
      omega

/-! ## The URL-safe alphabet, without padding -/

/-- The URL-safe character of a symbol. -/
def toUrl (c : Char) : Char := if c = '+' then '-' else if c = '/' then '_' else c

def ofUrl (c : Char) : Option Char :=
  if c = '+' ∨ c = '/' ∨ c = '=' then none
  else some (if c = '-' then '+' else if c = '_' then '/' else c)

/-- `URL_SAFE_NO_PAD.encode`. -/
def encodeUrl (bytes : Bytes) : Text := ((encode bytes).filter (· ≠ '=')).map toUrl

/-- `URL_SAFE_NO_PAD.decode`. -/
def decodeUrl (t : Text) : Option Bytes := do
  let t ← t.mapM ofUrl
  decode (t ++ List.replicate ((4 - t.length % 4) % 4) '=')

theorem ofUrl_toUrl_symbol {n : Nat} (h : n < 64) : ofUrl (toUrl (symbol n)) = some (symbol n) := by
  obtain ⟨hpad, hdash, hlow, -⟩ := symbol_ne h
  rw [toUrl]
  split_ifs with hplus hslash
  · rw [hplus]
    decide
  · rw [hslash]
    decide
  · rw [ofUrl, if_neg (by simp [hplus, hslash, hpad]), if_neg hdash, if_neg hlow]

theorem toUrl_symbol_ne_dot {n : Nat} (h : n < 64) : toUrl (symbol n) ≠ '.' := by
  rw [toUrl]
  split_ifs
  · decide
  · decide
  · exact (symbol_ne h).2.2.2

/-- What is encoded is symbols, padded to a whole number of quads. -/
theorem encode_eq_padded (bytes : Bytes) : ∃ symbols : List Nat, (∀ n ∈ symbols, n < 64) ∧
    encode bytes =
      symbols.map symbol ++ List.replicate ((4 - symbols.length % 4) % 4) '=' := by
  fun_induction encode bytes with
  | case1 => exact ⟨[], by simp, rfl⟩
  | case2 a =>
      have ha := a.toNat_lt
      refine ⟨[a.toNat / 4, a.toNat % 4 * 16], ?_, rfl⟩
      simp only [List.forall_mem_cons, List.not_mem_nil, false_imp_iff, implies_true, and_true]
      omega
  | case3 a b =>
      have ha := a.toNat_lt
      have hb := b.toNat_lt
      refine ⟨[a.toNat / 4, a.toNat % 4 * 16 + b.toNat / 16, b.toNat % 16 * 4], ?_, rfl⟩
      simp only [List.forall_mem_cons, List.not_mem_nil, false_imp_iff, implies_true, and_true]
      omega
  | case4 a b c rest ih =>
      have ha := a.toNat_lt
      have hb := b.toNat_lt
      have hc := c.toNat_lt
      obtain ⟨symbols, hbound, hrest⟩ := ih
      refine ⟨a.toNat / 4 :: (a.toNat % 4 * 16 + b.toNat / 16) ::
        (b.toNat % 16 * 4 + c.toNat / 64) :: c.toNat % 64 :: symbols, ?_, ?_⟩
      · simp only [List.forall_mem_cons]
        exact ⟨by omega, by omega, by omega, by omega, hbound⟩
      · have hlength : (4 - (symbols.length + 1 + 1 + 1 + 1) % 4) % 4 =
            (4 - symbols.length % 4) % 4 := by omega
        rw [hrest]
        simp only [List.map_cons, List.cons_append, List.length_cons, hlength]

theorem encodeUrl_eq_map (bytes : Bytes) : ∃ symbols : List Nat, (∀ n ∈ symbols, n < 64) ∧
    encode bytes =
      symbols.map symbol ++ List.replicate ((4 - symbols.length % 4) % 4) '=' ∧
    encodeUrl bytes = symbols.map (toUrl ∘ symbol) := by
  obtain ⟨symbols, hbound, hencode⟩ := encode_eq_padded bytes
  refine ⟨symbols, hbound, hencode, ?_⟩
  have hsymbols : (symbols.map symbol).filter (· ≠ '=') = symbols.map symbol := by
    rw [List.filter_eq_self]
    intro c hc
    obtain ⟨n, hn, rfl⟩ := List.mem_map.mp hc
    exact decide_eq_true (symbol_ne_pad (hbound n hn))
  rw [encodeUrl, hencode, List.filter_append, hsymbols]
  simp

/-- What was encoded is read back. -/
theorem decodeUrl_encodeUrl (bytes : Bytes) : decodeUrl (encodeUrl bytes) = some bytes := by
  obtain ⟨symbols, hbound, hencode, hurl⟩ := encodeUrl_eq_map bytes
  have hread : ∀ l : List Nat, (∀ n ∈ l, n < 64) →
      (l.map (toUrl ∘ symbol)).mapM ofUrl = some (l.map symbol) := by
    intro l hl
    induction l with
    | nil => rfl
    | cons n l ih =>
        obtain ⟨hn, hrest⟩ := List.forall_mem_cons.mp hl
        rw [List.map_cons, List.mapM_cons, ih hrest, Function.comp_apply, ofUrl_toUrl_symbol hn]
        rfl
  rw [decodeUrl, hurl, hread symbols hbound, Option.bind_eq_bind, Option.bind_some,
    List.length_map, ← hencode, decode_encode]

/-- An encoded text has no dot. -/
theorem dot_notMem_encodeUrl (bytes : Bytes) : '.' ∉ encodeUrl bytes := by
  obtain ⟨symbols, hbound, _, hurl⟩ := encodeUrl_eq_map bytes
  rw [hurl]
  intro h
  obtain ⟨n, hn, hdot⟩ := List.mem_map.mp h
  exact toUrl_symbol_ne_dot (hbound n hn) hdot

end Genaryx.Base64
