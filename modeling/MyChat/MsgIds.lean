import MyChat.Lib.Json
import MyChat.Lib.Pack
import MyChat.Encrypt

/-! Message ids: how they pass through `int`, and which ids `generateUniqueMsgId`
gives to clients with a number at the end of their id. The shift leaves 12 bits
for a number of up to 14. -/

namespace MyChat

/-! ## The signed detour -/

/-- An id read as an `int`, and passed on as one. -/
theorem toUInt32_ofInt_toNat (m : UInt32) : (Int32.ofInt m.toNat).toUInt32 = m := by
  apply UInt32.toNat_inj.mp
  have h := m.toNat_lt
  simp [Int32.ofInt]

/-- An `int` written as a number, and read as an id. -/
theorem ofInt_toInt (m : Int32) : UInt32.ofInt m.toInt = m.toUInt32 := by
  apply UInt32.toNat_inj.mp
  have hlt := m.toUInt32.toNat_lt
  have hint : m.toInt = (m.toUInt32.toNat : Int).bmod (2 ^ 32) := BitVec.toInt_eq_toNat_bmod _
  rw [UInt32.ofInt, UInt32.toNat_ofNat', hint, Int.bmod_def]
  split
  · omega
  · omega

theorem ofInt_toNat (m : UInt32) : UInt32.ofInt m.toNat = m := by
  apply UInt32.toNat_inj.mp
  have hlt := m.toNat_lt
  rw [UInt32.ofInt, UInt32.toNat_ofNat']
  omega

theorem int32_toUInt32_inj {a b : Int32} : a.toUInt32 = b.toUInt32 ↔ a = b := by
  refine ⟨fun h => ?_, fun h => h ▸ rfl⟩
  cases a
  cases b
  cases h
  rfl

/-! ## The generator -/

/-- The last four characters are decimal digits. -/
def EndsInDigits (clientId : Bytes) : Prop :=
  4 ≤ clientId.length ∧ ∀ b ∈ clientId.drop (clientId.length - 4), isDigit b

instance (clientId : Bytes) : Decidable (EndsInDigits clientId) :=
  @instDecidableAnd _ _ (Nat.decLe _ _) (List.decidableBAll _ _)

/-- The number they are. -/
def suffixOf (clientId : Bytes) : Nat := digitsValue (clientId.drop (clientId.length - 4))

/-- Both calls return, and ids of different pairs of time and suffix differ. -/
def ToldApart (c₁ c₂ : Bytes) (t₁ t₂ : Nat) : Prop :=
  ∃ m₁ m₂, generateUniqueMsgId t₁ c₁ = some m₁ ∧ generateUniqueMsgId t₂ c₂ = some m₂ ∧
    ((t₁, suffixOf c₁) ≠ (t₂, suffixOf c₂) → m₁ ≠ m₂)

/-- The suffixes agree in the 12 bits below the shift, the times are of one
block of four seconds modulo 2^20, and the second within the block is the same
once the bits of the suffix above the shift are or-ed into it. -/
structure Overlap (c₁ c₂ : Bytes) (t₁ t₂ : Nat) : Prop where
  low : suffixOf c₁ % 4096 = suffixOf c₂ % 4096
  block : t₁ / 4 % 2 ^ 18 = t₂ / 4 % 2 ^ 18
  second : t₁ % 4 ||| suffixOf c₁ / 4096 = t₂ % 4 ||| suffixOf c₂ / 4096

variable {c₁ c₂ clientId : Bytes}

theorem suffixOf_lt (h : EndsInDigits clientId) : suffixOf clientId < 10000 := by
  have hlen : (clientId.drop (clientId.length - 4)).length = 4 := by
    rw [List.length_drop]
    have h4 := h.1
    omega
  have hlt := digitsValue_lt h.2
  rw [hlen] at hlt
  exact hlt

theorem generateUniqueMsgId_digits (h : EndsInDigits clientId) (time : Nat) :
    generateUniqueMsgId time clientId =
      some ((UInt32.ofNat time <<< 12) ||| UInt32.ofNat (suffixOf clientId)) := by
  have hne : clientId ≠ [] := by
    rintro rfl
    exact absurd h.1 (by decide)
  have hdrop : clientId.drop (clientId.length - 4) ≠ [] := by
    intro hnil
    have hlen := congrArg List.length hnil
    rw [List.length_drop, List.length_nil] at hlen
    have h4 := h.1
    omega
  have hmod : (suffixOf clientId : Int).tmod 10000 = suffixOf clientId := by
    have hlt := suffixOf_lt h
    rw [Int.tmod_eq_emod_of_nonneg (by omega)]
    omega
  have hstoi : stoi (clientId.drop (clientId.length - 4)) = some (suffixOf clientId : Int) :=
    stoi_digits h.2 hdrop
  have hcast : UInt32.ofInt (suffixOf clientId) = UInt32.ofNat (suffixOf clientId) := by
    apply UInt32.toNat_inj.mp
    rw [UInt32.ofInt, UInt32.toNat_ofNat', UInt32.toNat_ofNat']
    omega
  rw [generateUniqueMsgId, if_neg hne, if_neg (by have h4 := h.1; omega), hstoi]
  simp only [Option.map_some, hmod, hcast]

/-- Ids as numbers: the time packed above the suffix. -/
theorem msgIds_eq_iff (h₁ : EndsInDigits c₁) (h₂ : EndsInDigits c₂) {t₁ t₂ : Nat} {m₁ m₂ : UInt32}
    (hm₁ : generateUniqueMsgId t₁ c₁ = some m₁) (hm₂ : generateUniqueMsgId t₂ c₂ = some m₂) :
    m₁ = m₂ ↔ pack 12 (t₁ % 2 ^ 20) (suffixOf c₁) = pack 12 (t₂ % 2 ^ 20) (suffixOf c₂) := by
  have hs₁ := suffixOf_lt h₁
  have hs₂ := suffixOf_lt h₂
  rw [generateUniqueMsgId_digits h₁] at hm₁
  rw [generateUniqueMsgId_digits h₂] at hm₂
  cases hm₁
  cases hm₂
  rw [← UInt32.toNat_inj, toNat_shift_or _ _ (by omega), toNat_shift_or _ _ (by omega)]

/-- Two calls return one id exactly when their fields overlap. -/
theorem overlap_iff (h₁ : EndsInDigits c₁) (h₂ : EndsInDigits c₂) {t₁ t₂ : Nat} {m₁ m₂ : UInt32}
    (hm₁ : generateUniqueMsgId t₁ c₁ = some m₁) (hm₂ : generateUniqueMsgId t₂ c₂ = some m₂) :
    m₁ = m₂ ↔ Overlap c₁ c₂ t₁ t₂ := by
  have hhigh : ∀ {c}, EndsInDigits c → suffixOf c / 2 ^ 12 < 2 ^ 2 := by
    intro c h
    have hs := suffixOf_lt h
    omega
  have hblock : ∀ t : Nat, t % 2 ^ 20 / 2 ^ 2 = t / 4 % 2 ^ 18 ∧ t % 2 ^ 20 % 2 ^ 2 = t % 4 := by
    intro t
    omega
  rw [msgIds_eq_iff h₁ h₂ hm₁ hm₂, pack_eq_iff, or_eq_iff (hhigh h₁) (hhigh h₂), (hblock t₁).1,
    (hblock t₁).2, (hblock t₂).1, (hblock t₂).2]
  exact ⟨fun ⟨⟨hb, hs⟩, hl⟩ => ⟨hl, hb, hs⟩, fun h => ⟨⟨h.block, h.second⟩, h.low⟩⟩

/-- Suffixes that fit below the shift: ids of times less than 2^20 seconds
apart tell every pair apart. -/
theorem toldApart_of_low (h₁ : EndsInDigits c₁) (h₂ : EndsInDigits c₂) (hs₁ : suffixOf c₁ < 4096)
    (hs₂ : suffixOf c₂ < 4096) {t₁ t₂ : Nat} (hlt : t₁ < t₂ + 2 ^ 20) (hlt' : t₂ < t₁ + 2 ^ 20) :
    ToldApart c₁ c₂ t₁ t₂ := by
  refine ⟨_, _, generateUniqueMsgId_digits h₁ t₁, generateUniqueMsgId_digits h₂ t₂,
    fun hne heq => ?_⟩
  have hpack := (msgIds_eq_iff h₁ h₂ (generateUniqueMsgId_digits h₁ t₁)
    (generateUniqueMsgId_digits h₂ t₂)).mp heq
  obtain ⟨htime, hsuffix⟩ := (pack_inj hs₁ hs₂).mp hpack
  have ht : t₁ = t₂ := by omega
  exact hne (by rw [ht, hsuffix])

/-- For every two client ids and times: the ids tell the calls apart exactly
when these are the same or their fields do not overlap. -/
theorem generateUniqueMsgId_toldApart_iff (h₁ : EndsInDigits c₁) (h₂ : EndsInDigits c₂)
    (t₁ t₂ : Nat) :
    ToldApart c₁ c₂ t₁ t₂ ↔
      (t₁, suffixOf c₁) = (t₂, suffixOf c₂) ∨ ¬ Overlap c₁ c₂ t₁ t₂ := by
  have hm₁ := generateUniqueMsgId_digits h₁ t₁
  have hm₂ := generateUniqueMsgId_digits h₂ t₂
  constructor
  · rintro ⟨m₁, m₂, h, h', hne⟩
    by_cases heq : (t₁, suffixOf c₁) = (t₂, suffixOf c₂)
    · exact Or.inl heq
    · exact Or.inr fun ho => hne heq ((overlap_iff h₁ h₂ h h').mpr ho)
  · intro h
    refine ⟨_, _, hm₁, hm₂, fun hne heq => ?_⟩
    rcases h with h | h
    · exact hne h
    · exact h ((overlap_iff h₁ h₂ hm₁ hm₂).mp heq)

theorem generateUniqueMsgId_toldApart_1234 :
    EndsInDigits (lit "user1234") ∧
      ToldApart (lit "user1234") (lit "user1234") 1700000000 1700000002 :=
  ⟨by decide +kernel,
    (generateUniqueMsgId_toldApart_iff (by decide +kernel) (by decide +kernel) _ _).mpr
    (Or.inr fun h => absurd h.second (by decide))⟩

/-- 9999 has a bit at the second place above the shift: one client's ids of a
second and of two seconds later. -/
theorem generateUniqueMsgId_repeats :
    ¬ ∀ c₁ c₂ : Bytes, EndsInDigits c₁ → EndsInDigits c₂ → ∀ t₁ t₂ : Nat, t₁ < 2 ^ 32 →
      t₂ < 2 ^ 32 →
      t₁ < t₂ + 2 ^ 20 → t₂ < t₁ + 2 ^ 20 → ToldApart c₁ c₂ t₁ t₂ := by
  intro h
  obtain ⟨m₁, m₂, h₁, h₂, hne⟩ :=
    h (lit "user9999") (lit "user9999") (by decide +kernel) (by decide +kernel)
    1700000000 1700000002 (by decide) (by decide) (by decide) (by decide)
  have hsame : generateUniqueMsgId 1700000000 (lit "user9999") =
      generateUniqueMsgId 1700000002 (lit "user9999") := by decide +kernel
  refine hne (by decide) (Option.some.inj ?_)
  rw [← h₁, ← h₂, hsame]

end MyChat
