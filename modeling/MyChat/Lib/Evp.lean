import MyChat.Lib.Bytes

/-! A block-mode cipher seen through its update and final calls, and the
CBC mode with PKCS#7 padding that meets its contract over any block cipher. -/

namespace MyChat

/-- Where a cipher call reported failure. -/
inductive EvpStage
  | context
  | init
  | update
  | final
  deriving DecidableEq, Repr

/-- Key, IV and data to what the update call and the final call each wrote. -/
structure Evp where
  encrypt : Bytes → Bytes → Bytes → Option (Bytes × Bytes)
  decrypt : Bytes → Bytes → Bytes → Except EvpStage (Bytes × Bytes)

/-- What is documented of a CBC cipher with PKCS#7 padding and 16-byte blocks. -/
structure Evp.Lawful (evp : Evp) : Prop where
  encrypt_length : ∀ {key iv d a b}, evp.encrypt key iv d = some (a, b) →
    (a ++ b).length = 16 * (d.length / 16 + 1)
  decrypt_encrypt : ∀ {key iv d a b}, evp.encrypt key iv d = some (a, b) →
    ∃ c e, evp.decrypt key iv (a ++ b) = .ok (c, e) ∧ c ++ e = d
  decrypt_length : ∀ {key iv d r}, evp.decrypt key iv d = .ok r → d.length % 16 = 0
  decrypt_truncated : ∀ {key iv d a b n c e}, evp.encrypt key iv d = some (a, b) →
    16 * n < (a ++ b).length → evp.decrypt key iv ((a ++ b).take (16 * n)) = .ok (c, e) →
    ∃ k, 1 ≤ k ∧ k ≤ 16 ∧ d.take (16 * n) = c ++ e ++ List.replicate k (UInt8.ofNat k)

/-- A keyed permutation of 16-byte blocks. -/
structure BlockCipher where
  enc : Bytes → Bytes → Bytes
  dec : Bytes → Bytes → Bytes
  enc_length : ∀ key {b}, b.length = 16 → (enc key b).length = 16
  dec_enc : ∀ key {b}, b.length = 16 → dec key (enc key b) = b

namespace Cbc

def xorBytes (a b : Bytes) : Bytes := List.zipWith (· ^^^ ·) a b

theorem xorBytes_length {a b : Bytes} (ha : a.length = 16) (hb : b.length = 16) :
    (xorBytes a b).length = 16 := by
  simp [xorBytes, ha, hb]

theorem xorBytes_cancel {a b : Bytes} (h : a.length = b.length) :
    xorBytes a (xorBytes a b) = b := by
  induction a generalizing b with
  | nil => cases b with
    | nil => rfl
    | cons y b => cases h
  | cons x a ih => cases b with
    | nil => cases h
    | cons y b =>
      have hxy : x ^^^ (x ^^^ y) = y := by rw [← UInt8.xor_assoc, UInt8.xor_self, UInt8.zero_xor]
      simp only [xorBytes, List.zipWith_cons_cons, hxy]
      rw [← xorBytes, ← xorBytes, ih (by simpa using h)]

/-! ## Padding -/

def pad (d : Bytes) : Bytes :=
  d ++ List.replicate (16 - d.length % 16) (UInt8.ofNat (16 - d.length % 16))

/-- The data without its padding, when the padding is well formed. -/
def unpad (d : Bytes) : Option Bytes :=
  match d.getLast? with
  | none => none
  | some p =>
      let k := p.toNat
      if 1 ≤ k ∧ k ≤ 16 ∧ k ≤ d.length ∧ d.drop (d.length - k) = List.replicate k p then
        some (d.take (d.length - k))
      else none

theorem pad_length (d : Bytes) : (pad d).length = 16 * (d.length / 16 + 1) := by
  simp only [pad, List.length_append, List.length_replicate]
  omega

theorem pad_le (d : Bytes) : 16 * (d.length / 16 + 1) ≤ (pad d).length :=
  Nat.le_of_eq (pad_length d).symm

theorem unpad_append {d : Bytes} {k : Nat} (h1 : 1 ≤ k) (h16 : k ≤ 16) :
    unpad (d ++ List.replicate k (UInt8.ofNat k)) = some d := by
  have hk : (UInt8.ofNat k).toNat = k := by simp; omega
  have hlast : (d ++ List.replicate k (UInt8.ofNat k)).getLast? = some (UInt8.ofNat k) := by
    rw [List.getLast?_append, List.getLast?_replicate, if_neg (by omega)]
    rfl
  simp [unpad, hlast, hk, h1, h16]

theorem unpad_pad (d : Bytes) : unpad (pad d) = some d := by
  apply unpad_append <;> omega

theorem unpad_eq_some {d p : Bytes} (h : unpad d = some p) :
    ∃ k, 1 ≤ k ∧ k ≤ 16 ∧ d = p ++ List.replicate k (UInt8.ofNat k) := by
  unfold unpad at h
  split at h
  · cases h
  · next q _ =>
    simp only at h
    split at h
    · next hk =>
      cases h
      refine ⟨q.toNat, hk.1, hk.2.1, ?_⟩
      rw [UInt8.ofNat_toNat, ← hk.2.2.2, List.take_append_drop]
    · cases h

/-! ## Chaining -/

/-- `n` blocks of `d`, each xored with the previous cipher block. -/
def chain (enc : Bytes → Bytes) : Nat → Bytes → Bytes → Bytes
  | 0, _, _ => []
  | n + 1, prev, d =>
      let c := enc (xorBytes prev (d.take 16))
      c ++ chain enc n c (d.drop 16)

def unchain (dec : Bytes → Bytes) : Nat → Bytes → Bytes → Bytes
  | 0, _, _ => []
  | n + 1, prev, d => xorBytes prev (dec (d.take 16)) ++ unchain dec n (d.take 16) (d.drop 16)

section
variable {bc : BlockCipher} {key : Bytes}

theorem chain_length {n : Nat} {prev d : Bytes} (hp : prev.length = 16) (hd : 16 * n ≤ d.length) :
    (chain (bc.enc key) n prev d).length = 16 * n := by
  induction n generalizing prev d with
  | zero => rfl
  | succ n ih =>
    have hx : (xorBytes prev (d.take 16)).length = 16 :=
      xorBytes_length hp (by rw [List.length_take]; omega)
    have hc := bc.enc_length key hx
    rw [chain, List.length_append, hc, ih hc (by rw [List.length_drop]; omega)]
    omega

/-- The first `m` blocks of the cipher text decrypt to the first `m` blocks. -/
theorem unchain_chain {m n : Nat} (hm : m ≤ n) {prev d : Bytes} (hp : prev.length = 16)
    (hd : 16 * n ≤ d.length) :
    unchain (bc.dec key) m prev (chain (bc.enc key) n prev d) = d.take (16 * m) := by
  induction m generalizing n prev d with
  | zero => simp [unchain]
  | succ m ih =>
    obtain ⟨n, rfl⟩ : ∃ k, n = k + 1 := ⟨n - 1, by omega⟩
    have ht : (d.take 16).length = 16 := by rw [List.length_take]; omega
    have hx := xorBytes_length hp ht
    have hc := bc.enc_length key hx
    have hrest := ih (n := n) (by omega) hc (d := d.drop 16) (by rw [List.length_drop]; omega)
    rw [chain, unchain, List.take_append_of_le_length (by omega), List.take_of_length_le (by omega),
      List.drop_append_of_le_length (by omega), List.drop_of_length_le (by omega), List.nil_append,
      hrest, bc.dec_enc key hx, xorBytes_cancel (by rw [hp, ht])]
    rw [show 16 * (m + 1) = 16 + 16 * m by omega, List.take_add]

/-- Decryption of `m` blocks reads only those blocks. -/
theorem unchain_take {dec : Bytes → Bytes} (m : Nat) (prev d : Bytes) :
    unchain dec m prev (d.take (16 * m)) = unchain dec m prev d := by
  induction m generalizing prev d with
  | zero => rfl
  | succ m ih =>
    rw [unchain, unchain, List.take_take, show min 16 (16 * (m + 1)) = 16 by omega, List.drop_take,
      show 16 * (m + 1) - 16 = 16 * m by omega, ih]

end

/-! ## The cipher -/

/-- The mode over `bc`: whole blocks come from the update call, the padded one
from the final call. -/
def evp (bc : BlockCipher) : Evp where
  encrypt key iv d :=
    if iv.length = 16 then
      let c := chain (bc.enc key) (d.length / 16 + 1) iv (pad d)
      some (c.take (16 * (d.length / 16)), c.drop (16 * (d.length / 16)))
    else none
  decrypt key iv d :=
    if d.length % 16 ≠ 0 then .error .final
    else
      match unpad (unchain (bc.dec key) (d.length / 16) iv d) with
      | none => .error .final
      | some p => .ok (p.take (d.length - 16), p.drop (d.length - 16))

variable {bc : BlockCipher}

theorem encrypt_eq {key iv d a b : Bytes} (h : (evp bc).encrypt key iv d = some (a, b)) :
    iv.length = 16 ∧ a ++ b = chain (bc.enc key) (d.length / 16 + 1) iv (pad d) := by
  simp only [evp] at h
  split at h
  · next hiv =>
    simp only [Option.some.injEq, Prod.mk.injEq] at h
    obtain ⟨rfl, rfl⟩ := h
    exact ⟨hiv, List.take_append_drop _ _⟩
  · cases h

theorem decrypt_ok {key iv d c e : Bytes} (h : (evp bc).decrypt key iv d = .ok (c, e)) :
    d.length % 16 = 0 ∧ unpad (unchain (bc.dec key) (d.length / 16) iv d) = some (c ++ e) := by
  simp only [evp] at h
  split at h
  · cases h
  · next hlen =>
    split at h
    · cases h
    · next p hp =>
      simp only [Except.ok.injEq, Prod.mk.injEq] at h
      obtain ⟨rfl, rfl⟩ := h
      exact ⟨not_not.mp hlen, by rw [hp, List.take_append_drop]⟩

theorem encrypt_length {key iv d a b : Bytes} (h : (evp bc).encrypt key iv d = some (a, b)) :
    (a ++ b).length = 16 * (d.length / 16 + 1) := by
  obtain ⟨hiv, he⟩ := encrypt_eq h
  rw [he, chain_length hiv (pad_le d)]

theorem decrypt_encrypt {key iv d a b : Bytes} (h : (evp bc).encrypt key iv d = some (a, b)) :
    ∃ c e, (evp bc).decrypt key iv (a ++ b) = .ok (c, e) ∧ c ++ e = d := by
  have hlen := encrypt_length h
  obtain ⟨hiv, he⟩ := encrypt_eq h
  have hun : unchain (bc.dec key) ((a ++ b).length / 16) iv (a ++ b) = pad d := by
    rw [hlen, he, unchain_chain (by omega) hiv (pad_le d)]
    exact List.take_of_length_le (by rw [pad_length]; omega)
  refine ⟨d.take ((a ++ b).length - 16), d.drop ((a ++ b).length - 16), ?_,
    List.take_append_drop _ _⟩
  have hmod : ¬ (a ++ b).length % 16 ≠ 0 := by rw [hlen]; omega
  simp only [evp, if_neg hmod, hun, unpad_pad]

theorem decrypt_truncated {key iv d a b c e : Bytes} {n : Nat}
    (h : (evp bc).encrypt key iv d = some (a, b)) (hn : 16 * n < (a ++ b).length)
    (hd : (evp bc).decrypt key iv ((a ++ b).take (16 * n)) = .ok (c, e)) :
    ∃ k, 1 ≤ k ∧ k ≤ 16 ∧ d.take (16 * n) = c ++ e ++ List.replicate k (UInt8.ofNat k) := by
  have hlen := encrypt_length h
  obtain ⟨hiv, he⟩ := encrypt_eq h
  obtain ⟨-, hu⟩ := decrypt_ok hd
  have htl : ((a ++ b).take (16 * n)).length / 16 = n := by rw [List.length_take]; omega
  rw [htl, unchain_take, he, unchain_chain (by omega) hiv (pad_le d)] at hu
  -- only whole blocks of `d` itself are left, the padded block lies beyond them
  have hpad : (pad d).take (16 * n) = d.take (16 * n) :=
    List.take_append_of_le_length (by omega)
  rw [hpad] at hu
  exact unpad_eq_some hu

theorem evp_lawful (bc : BlockCipher) : (evp bc).Lawful where
  encrypt_length := encrypt_length
  decrypt_encrypt := decrypt_encrypt
  decrypt_length := fun {_ _ _ r} h => (decrypt_ok (c := r.1) (e := r.2) h).1
  decrypt_truncated := decrypt_truncated

end Cbc

/-- One cipher after another. -/
def BlockCipher.comp (f g : BlockCipher) : BlockCipher where
  enc key b := g.enc key (f.enc key b)
  dec key b := f.dec key (g.dec key b)
  enc_length key _ hb := g.enc_length key (f.enc_length key hb)
  dec_enc key b hb := by rw [g.dec_enc key (f.enc_length key hb), f.dec_enc key hb]

/-- Exchanges two blocks and fixes every other one. -/
def BlockCipher.swap (x y : Bytes) (hx : x.length = 16) (hy : y.length = 16) : BlockCipher where
  enc _ b := if b = x then y else if b = y then x else b
  dec _ b := if b = x then y else if b = y then x else b
  enc_length _ {b} hb := by
    split
    · exact hy
    · split
      · exact hx
      · exact hb
  dec_enc _ {b} _ := by
    by_cases h1 : b = x
    · subst h1
      by_cases h2 : y = b <;> simp [h2]
    · by_cases h2 : b = y
      · subst h2; simp [h1]
      · simp [h1, h2]

end MyChat
