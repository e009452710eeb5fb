import Mathlib.Order.Basic
import MyChat.Lib.Bytes

/-! JSON values with the accessors of a dynamically typed C++ library, and the
contract between its parser and its serialiser. Accessors that throw a type
error return `none`. -/

namespace MyChat

/-- Both integer kinds are one constructor: every access converts through the
same modular cast. `float` keeps the 64 bits of the double. -/
inductive Json
  | null
  | bool (b : Bool)
  | int (n : Int)
  | float (bits : UInt64)
  | str (s : Bytes)
  | arr (xs : List Json)
  | obj (fields : List (Bytes × Json))
  deriving Repr, Inhabited

namespace Json

/-! ## Objects: key-sorted association lists -/

def lookup (k : Bytes) : List (Bytes × Json) → Option Json
  | [] => none
  | (k', v) :: fs => if k' = k then some v else lookup k fs

def insert (k : Bytes) (v : Json) : List (Bytes × Json) → List (Bytes × Json)
  | [] => [(k, v)]
  | (k', v') :: fs =>
      if k' = k then (k, v) :: fs
      else if k < k' then (k, v) :: (k', v') :: fs
      else (k', v') :: insert k v fs

/-- `js[k]` read as a value: an absent key (and a null document) gives null,
anything but an object throws. -/
def index (j : Json) (k : Bytes) : Option Json :=
  match j with
  | null => some null
  | obj fs => some ((lookup k fs).getD null)
  | _ => none

/-- `js[k] = v`, on a null document or an object. -/
def set (j : Json) (k : Bytes) (v : Json) : Json :=
  match j with
  | obj fs => obj (insert k v fs)
  | _ => obj [(k, v)]

def contains (j : Json) (k : Bytes) : Bool :=
  match j with
  | obj fs => (lookup k fs).isSome
  | _ => false

def isNull : Json → Bool
  | null => true
  | _ => false

/-! ## Conversions -/

/-- Truncation toward zero of the double with these bits. -/
def truncate (bits : UInt64) : Int :=
  let e := (bits >>> 52).toNat % 2048
  let frac := bits.toNat % 2 ^ 52
  let mant := if e = 0 then frac else 2 ^ 52 + frac
  let mag : Nat := if 1075 ≤ e then mant * 2 ^ (e - 1075) else mant / 2 ^ (1075 - e)
  if bits < 0x8000000000000000 then (mag : Int) else -(mag : Int)

/-- `static_cast<int>(double)`. Out of range it is undefined in C++; this is
the x86-64 result. -/
def floatToInt32 (bits : UInt64) : Int32 :=
  let t := truncate bits
  if -2 ^ 31 ≤ t ∧ t < 2 ^ 31 then Int32.ofInt t else Int32.ofInt (-2 ^ 31)

/-- `static_cast<uint32_t>(double)`, through the 64-bit conversion of x86-64. -/
def floatToUInt32 (bits : UInt64) : UInt32 :=
  let t := truncate bits
  if -2 ^ 63 ≤ t ∧ t < 2 ^ 63 then UInt32.ofInt t else 0

/-- `get<int>()`. -/
def getInt : Json → Option Int32
  | bool b => some (if b then 1 else 0)
  | int n => some (Int32.ofInt n)
  | float bits => some (floatToInt32 bits)
  | _ => none

/-- `get<uint32_t>()`. -/
def getUInt32 : Json → Option UInt32
  | bool b => some (if b then 1 else 0)
  | int n => some (UInt32.ofInt n)
  | float bits => some (floatToUInt32 bits)
  | _ => none

/-- Conversion to an enumeration type, which takes numbers only, through the
unsigned type under it. -/
def getEnum : Json → Option Int32
  | bool _ => none
  | j => j.getUInt32.map UInt32.toInt32

/-- `get<string>()`. -/
def getString : Json → Option Bytes
  | str s => some s
  | _ => none

def intAt (j : Json) (k : Bytes) : Option Int32 := (j.index k).bind getInt
def uint32At (j : Json) (k : Bytes) : Option UInt32 := (j.index k).bind getUInt32
def stringAt (j : Json) (k : Bytes) : Option Bytes := (j.index k).bind getString

def ofInt32 (n : Int32) : Json := int n.toInt
def ofUInt32 (n : UInt32) : Json := int n.toNat
def ofStrings (v : List Bytes) : Json := arr (v.map str)

/-- An object built from literal keys. -/
def object : List (String × Json) → Json
  | [] => null
  | (k, v) :: fs => (object fs).set (lit k) v

/-! ## Well-formed values -/

mutual
/-- Every string and key is valid UTF-8. -/
def utf8 : Json → Bool
  | str s => validUtf8 s
  | arr xs => utf8List xs
  | obj fs => utf8Fields fs
  | _ => true
def utf8List : List Json → Bool
  | [] => true
  | x :: xs => x.utf8 && utf8List xs
def utf8Fields : List (Bytes × Json) → Bool
  | [] => true
  | (k, x) :: fs => validUtf8 k && x.utf8 && utf8Fields fs
end

/-- Keys strictly above `k`, in increasing order. -/
def above (k : Bytes) : List (Bytes × Json) → Bool
  | [] => true
  | (k', _) :: fs => decide (k < k') && above k' fs

def sorted : List (Bytes × Json) → Bool
  | [] => true
  | (k, _) :: fs => above k fs

mutual
/-- What the parser produces: numbers in the ranges of their C++ types, objects
sorted by key without repetition. -/
def canon : Json → Bool
  | int n => -2 ^ 63 ≤ n && n < 2 ^ 64
  | float bits => (bits >>> 52).toNat % 2048 ≠ 2047
  | arr xs => canonList xs
  | obj fs => sorted fs && canonFields fs
  | _ => true
def canonList : List Json → Bool
  | [] => true
  | x :: xs => x.canon && canonList xs
def canonFields : List (Bytes × Json) → Bool
  | [] => true
  | (_, x) :: fs => x.canon && canonFields fs
end

/-! ## Reading back what was set -/

theorem lookup_insert_self (k : Bytes) (v : Json) (fs : List (Bytes × Json)) :
    lookup k (insert k v fs) = some v := by
  induction fs with
  | nil => simp [insert, lookup]
  | cons f fs ih =>
    obtain ⟨k', v'⟩ := f
    simp only [insert]
    split
    · simp [lookup]
    · next hne =>
      split
      · simp [lookup]
      · simp [lookup, hne, ih]

theorem lookup_insert_ne {k k' : Bytes} (h : k' ≠ k) (v : Json) (fs : List (Bytes × Json)) :
    lookup k (insert k' v fs) = lookup k fs := by
  induction fs with
  | nil => simp [insert, lookup, h]
  | cons f fs ih =>
    obtain ⟨k₁, v₁⟩ := f
    simp only [insert]
    split
    · next he => subst he; simp [lookup, h]
    · split
      · simp [lookup, h]
      · simp only [lookup, ih]

/-- Documents that are null or an object, the ones `set` extends. -/
def isDoc : Json → Bool
  | null => true
  | obj _ => true
  | _ => false

@[simp] theorem isDoc_set (k : Bytes) (v j : Json) : (j.set k v).isDoc = true := by
  cases j <;> rfl

@[simp] theorem index_set_self (k : Bytes) (v j : Json) : (j.set k v).index k = some v := by
  cases j <;> simp [set, index, lookup, lookup_insert_self]

theorem index_set_ne {k k' : Bytes} (h : k' ≠ k) (v : Json) {j : Json} (hj : j.isDoc) :
    (j.set k' v).index k = j.index k := by
  cases j with
  | null => simp [set, index, lookup, h]
  | obj fs => simp [set, index, lookup_insert_ne h]
  | _ => cases hj

/-! ## Well-formedness of built values -/

theorem above_insert {k₀ k : Bytes} (hk : k₀ < k) (v : Json) {fs : List (Bytes × Json)}
    (h : above k₀ fs) : above k₀ (insert k v fs) := by
  induction fs generalizing k₀ with
  | nil => simp [insert, above, hk]
  | cons f fs ih =>
    obtain ⟨k', v'⟩ := f
    simp only [above, Bool.and_eq_true, decide_eq_true_eq] at h
    simp only [insert]
    split
    · next he => subst he; simp [above, hk, h.2]
    · next hne =>
      split
      · next hlt => simp [above, hk, hlt, h.2]
      · next hge =>
        have hlt : k' < k := by
          rcases List.le_iff_lt_or_eq.mp (List.not_lt.mp hge) with hl | he
          · exact hl
          · exact absurd he hne
        simp only [above, h.1, decide_true, Bool.true_and]
        exact ih hlt h.2

theorem sorted_insert (k : Bytes) (v : Json) {fs : List (Bytes × Json)} (h : sorted fs) :
    sorted (insert k v fs) := by
  cases fs with
  | nil => rfl
  | cons f fs =>
    obtain ⟨k', v'⟩ := f
    simp only [insert]
    split
    · next he => subst he; exact h
    · next hne =>
      split
      · next hlt => simpa [sorted, above, hlt] using h
      · next hge =>
        have hlt : k' < k := by
          rcases List.le_iff_lt_or_eq.mp (List.not_lt.mp hge) with hl | he
          · exact hl
          · exact absurd he hne
        exact above_insert hlt v h

theorem canonFields_insert (k : Bytes) {v : Json} (hv : v.canon) {fs : List (Bytes × Json)}
    (h : canonFields fs) : canonFields (insert k v fs) := by
  induction fs with
  | nil => simpa [insert, canonFields] using hv
  | cons f fs ih =>
    obtain ⟨k', v'⟩ := f
    simp only [canonFields, Bool.and_eq_true] at h
    simp only [insert]
    split
    · simp [canonFields, hv, h.2]
    · split
      · simp [canonFields, hv, h.1, h.2]
      · simp [canonFields, h.1, ih h.2]

theorem utf8Fields_insert {k : Bytes} (hk : validUtf8 k) {v : Json} (hv : v.utf8)
    {fs : List (Bytes × Json)} (h : utf8Fields fs) : utf8Fields (insert k v fs) := by
  induction fs with
  | nil => simp [insert, utf8Fields, hk, hv]
  | cons f fs ih =>
    obtain ⟨k', v'⟩ := f
    simp only [utf8Fields, Bool.and_eq_true] at h
    simp only [insert]
    split
    · simp [utf8Fields, hk, hv, h.2]
    · split
      · simp [utf8Fields, hk, hv, h.1, h.2]
      · simp [utf8Fields, h.1, ih h.2]

theorem canon_set (k : Bytes) {v j : Json} (hv : v.canon) (hj : j.canon) :
    (j.set k v).canon := by
  cases j with
  | obj fs =>
    simp only [canon, Bool.and_eq_true] at hj
    simp [set, canon, sorted_insert k v hj.1, canonFields_insert k hv hj.2]
  | _ => simp [set, canon, sorted, above, canonFields, hv]

theorem utf8_set {k : Bytes} (hk : validUtf8 k) {v j : Json} (hv : v.utf8) (hj : j.utf8) :
    (j.set k v).utf8 := by
  cases j with
  | obj fs => simpa [set, utf8] using utf8Fields_insert hk hv (by simpa [utf8] using hj)
  | _ => simp [set, utf8, utf8Fields, hk, hv]

theorem utf8_lookup {k : Bytes} {v : Json} {fs : List (Bytes × Json)} (h : utf8Fields fs)
    (hv : lookup k fs = some v) : v.utf8 := by
  induction fs with
  | nil => cases hv
  | cons f fs ih =>
    obtain ⟨k', v'⟩ := f
    simp only [utf8Fields, Bool.and_eq_true] at h
    rw [lookup] at hv
    split at hv
    · cases hv; exact h.1.2
    · exact ih h.2 hv

theorem validUtf8_stringAt {j : Json} (hj : j.utf8) {k s : Bytes} (h : j.stringAt k = some s) :
    validUtf8 s := by
  obtain ⟨v, hi, hs⟩ := Option.bind_eq_some_iff.mp h
  cases v with
  | str s' =>
    cases hs
    cases j with
    | null => cases hi
    | obj fs =>
      obtain ⟨v, hv⟩ : ∃ v, lookup k fs = some v := by
        rw [index] at hi
        cases hl : lookup k fs with
        | none => rw [hl] at hi; cases hi
        | some v => exact ⟨v, rfl⟩
      rw [index, hv] at hi
      cases hi
      have hsv := utf8_lookup (by simpa [utf8] using hj) hv
      simpa [utf8] using hsv
    | _ => cases hi
  | _ => cases hs

theorem canon_ofInt32 (n : Int32) : (ofInt32 n).canon := by
  have h1 := n.le_toInt
  have h2 := n.toInt_lt
  simp only [ofInt32, canon, Bool.and_eq_true, decide_eq_true_eq]
  omega

theorem canon_ofStrings (v : List Bytes) : (ofStrings v).canon := by
  simp only [ofStrings, canon]
  induction v with
  | nil => rfl
  | cons s v ih => simpa [canonList, canon] using ih

theorem utf8_ofStrings (v : List Bytes) : (ofStrings v).utf8 = v.all validUtf8 := by
  simp only [ofStrings, utf8]
  induction v with
  | nil => rfl
  | cons s v ih => simp [utf8List, utf8, ih]

theorem isDoc_object (fs : List (String × Json)) : (object fs).isDoc = true := by
  cases fs with
  | nil => rfl
  | cons f fs => exact isDoc_set _ _ _

theorem index_object (k : String) (v : Json) (fs : List (String × Json)) (k' : Bytes) :
    (object ((k, v) :: fs)).index k' = if lit k = k' then some v else (object fs).index k' := by
  split
  · next h => subst h; exact index_set_self _ _ _
  · next h => exact index_set_ne h v (isDoc_object fs)

/-- Members of an object built from literal keys are found by name. -/
theorem index_lit (k : String) (v : Json) (fs : List (String × Json)) (k' : String) :
    (object ((k, v) :: fs)).index (lit k') = if k = k' then some v
      else (object fs).index (lit k') := by
  rw [index_object]
  exact if_congr lit_inj rfl rfl

theorem index_lit_nil (k : String) : (object []).index (lit k) = some .null := rfl

theorem intAt_lit (k : String) (v : Json) (fs : List (String × Json)) (k' : String) :
    (object ((k, v) :: fs)).intAt (lit k') = if k = k' then v.getInt
      else (object fs).intAt (lit k') := by
  rw [intAt, index_lit]
  split <;> rfl

theorem stringAt_lit (k : String) (v : Json) (fs : List (String × Json)) (k' : String) :
    (object ((k, v) :: fs)).stringAt (lit k') =
      if k = k' then v.getString else (object fs).stringAt (lit k') := by
  rw [stringAt, index_lit]
  split <;> rfl

theorem index_object_mem {fs : List (String × Json)} (h : (fs.map Prod.fst).Nodup)
    {f : String × Json} (hf : f ∈ fs) : (object fs).index (lit f.1) = some f.2 := by
  induction fs with
  | nil => cases hf
  | cons g fs ih =>
    simp only [List.map_cons, List.nodup_cons] at h
    rw [index_lit]
    rcases List.mem_cons.mp hf with rfl | hf
    · exact if_pos rfl
    · have hne : g.1 ≠ f.1 := fun he => h.1 (he ▸ List.mem_map_of_mem hf)
      rw [if_neg hne]
      exact ih h.2 hf

theorem intAt_lit_nil (k : String) : (object []).intAt (lit k) = none := rfl

theorem canon_object {fs : List (String × Json)} (h : ∀ f ∈ fs, f.2.canon) :
    (object fs).canon := by
  induction fs with
  | nil => rfl
  | cons f fs ih =>
    exact canon_set _ (h f (by simp)) (ih fun g hg => h g (by simp [hg]))

theorem utf8_object {fs : List (String × Json)} (h : ∀ f ∈ fs, f.2.utf8) : (object fs).utf8 := by
  induction fs with
  | nil => rfl
  | cons f fs ih =>
    exact utf8_set (validUtf8_lit f.1) (h f (by simp)) (ih fun g hg => h g (by simp [hg]))

theorem utf8Fields_insert_new {k : Bytes} {v : Json} {fs : List (Bytes × Json)}
    (h : lookup k fs = none) :
    utf8Fields (insert k v fs) = (validUtf8 k && v.utf8 && utf8Fields fs) := by
  induction fs with
  | nil => simp [insert, utf8Fields]
  | cons f fs ih =>
    obtain ⟨k', v'⟩ := f
    simp only [lookup] at h
    split at h
    · cases h
    · next hne =>
      simp only [insert, hne, ↓reduceIte]
      split
      · simp [utf8Fields]
      · simp only [utf8Fields, ih h]
        ac_rfl

theorem contains_object (k : String) (v : Json) (fs : List (String × Json)) (k' : Bytes) :
    (object ((k, v) :: fs)).contains k' = (lit k = k' || (object fs).contains k') := by
  have hset : ∀ j : Json, j.isDoc →
      (j.set (lit k) v).contains k' = (lit k = k' || j.contains k') := by
    intro j hj
    cases j with
    | null => by_cases h : lit k = k' <;> simp [set, contains, lookup, h]
    | obj gs =>
      by_cases h : lit k = k'
      · subst h; simp [set, contains, lookup_insert_self]
      · simp [set, contains, lookup_insert_ne h, h]
    | _ => cases hj
  exact hset _ (isDoc_object fs)

theorem utf8_object_eq {fs : List (String × Json)} (h : (fs.map Prod.fst).Nodup) :
    (object fs).utf8 = fs.all fun f => f.2.utf8 := by
  induction fs with
  | nil => rfl
  | cons f fs ih =>
    obtain ⟨k, v⟩ := f
    simp only [List.map_cons, List.nodup_cons] at h
    have hnew : (object fs).contains (lit k) = false := by
      have hk := h.1
      clear h ih
      induction fs with
      | nil => rfl
      | cons g fs ih =>
        simp only [List.map_cons, List.mem_cons, not_or] at hk
        rw [contains_object, ih hk.2]
        simpa [lit_inj] using fun he => hk.1 he.symm
    rw [List.all_cons, ← ih h.2]
    show ((object fs).set (lit k) v).utf8 = _
    cases hj : object fs with
    | null => simp [set, utf8, utf8Fields]
    | obj gs =>
      rw [hj, contains, Option.isSome_eq_false_iff, Option.isNone_iff_eq_none] at hnew
      simp [set, utf8, utf8Fields_insert_new hnew]
    | _ => exact absurd (hj ▸ isDoc_object fs) (by simp [isDoc])

@[simp] theorem utf8_ofInt32 (n : Int32) : (ofInt32 n).utf8 = true := rfl

@[simp] theorem getInt_ofInt32 (n : Int32) : (ofInt32 n).getInt = some n := by
  simp [ofInt32, getInt, Int32.ofInt_toInt]

end Json

/-! ## The library's contract -/

/-- Text to value and back. `parse` fails where it throws a parse error, `dump`
where it throws on a string that is not UTF-8. -/
structure JsonCodec where
  parse : Bytes → Option Json
  dump : Json → Option Bytes

/-- What the library documents about the two. -/
structure JsonCodec.Lawful (codec : JsonCodec) : Prop where
  parse_nil : codec.parse [] = none
  parse_canon : ∀ {t j}, codec.parse t = some j → j.canon
  parse_utf8 : ∀ {t j}, codec.parse t = some j → j.utf8
  dump_isSome : ∀ j, (codec.dump j).isSome = j.utf8
  dump_utf8 : ∀ {j t}, codec.dump j = some t → validUtf8 t
  dump_printable : ∀ {j t}, codec.dump j = some t → ∀ b ∈ t, 0x20 ≤ b
  parse_dump : ∀ {j t}, j.canon → codec.dump j = some t → codec.parse t = some j

/-- The serialised text, empty where `dump` throws. -/
def JsonCodec.text (codec : JsonCodec) (j : Json) : Bytes := (codec.dump j).getD []

namespace JsonCodec.Lawful

variable {codec : JsonCodec}

theorem dump_of_utf8 (h : codec.Lawful) {j : Json} (hj : j.utf8) : ∃ t, codec.dump j = some t :=
  Option.isSome_iff_exists.mp ((h.dump_isSome j).trans hj)

theorem dump_eq (h : codec.Lawful) {j : Json} (hj : j.utf8) :
    codec.dump j = some (codec.text j) := by
  obtain ⟨t, ht⟩ := h.dump_of_utf8 hj
  rw [JsonCodec.text, ht]
  rfl

theorem dump_none (h : codec.Lawful) {j : Json} : codec.dump j = none ↔ j.utf8 = false := by
  rw [← h.dump_isSome j]
  cases codec.dump j <;> simp

/-- Control characters are escaped, so a C string shows the whole text. -/
theorem cStr_dump (h : codec.Lawful) {j : Json} {t : Bytes} (hd : codec.dump j = some t) :
    cStr t = t :=
  cStr_eq_self fun h0 => absurd (h.dump_printable hd 0 h0) (by decide)

theorem ne_nil_of_parse (h : codec.Lawful) {t : Bytes} {j : Json} (hp : codec.parse t = some j) :
    t ≠ [] := by
  rintro rfl
  rw [h.parse_nil] at hp
  cases hp

end JsonCodec.Lawful

end MyChat
