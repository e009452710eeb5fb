import Mathlib.Algebra.Group.Nat.Defs
import Mathlib.Data.List.Nodup

/-! Tables with an auto-increment 32-bit primary key. -/

namespace MyChat

/-- Rows behind their keys, and the key the next row gets. Keys are positive,
distinct and below `next`. -/
structure AutoTable (α : Type) where
  rows : List (Int32 × α)
  next : Nat
  next_pos : 0 < next
  pos : ∀ r ∈ rows, 0 < r.1.toInt
  below : ∀ r ∈ rows, r.1.toInt < next
  nodup : (rows.map Prod.fst).Nodup

namespace AutoTable

variable {α : Type}

def empty : AutoTable α where
  rows := []
  next := 1
  next_pos := by decide
  pos := by simp
  below := by simp
  nodup := by simp

def get (t : AutoTable α) (id : Int32) : Option α :=
  (t.rows.find? (·.1 = id)).map Prod.snd

theorem toInt_ofNat {n : Nat} (h : n < 2 ^ 31) : (Int32.ofInt n).toInt = n :=
  Int32.toInt_ofInt_of_le (by omega) (by omega)

/-- Appends a row and gives its key. Fails once the keys are used up. -/
def insert (t : AutoTable α) (a : α) : Option (AutoTable α × Int32) :=
  if h : t.next < 2 ^ 31 then
    some ({ rows := t.rows ++ [(Int32.ofInt t.next, a)]
            next := t.next + 1
            next_pos := Nat.succ_pos _
            pos := by
              intro r hr
              rcases List.mem_append.mp hr with hr | hr
              · exact t.pos r hr
              · cases List.mem_singleton.mp hr
                have := t.next_pos
                rw [toInt_ofNat h]
                omega
            below := by
              intro r hr
              rcases List.mem_append.mp hr with hr | hr
              · have := t.below r hr
                omega
              · cases List.mem_singleton.mp hr
                rw [toInt_ofNat h]
                omega
            nodup := by
              rw [List.map_append, List.nodup_append]
              refine ⟨t.nodup, by simp, ?_⟩
              rintro k hk k' hk' rfl
              obtain ⟨r, hr, rfl⟩ := List.mem_map.mp hk
              have hlt := t.below r hr
              simp only [List.map_cons, List.map_nil, List.mem_singleton] at hk'
              rw [hk', toInt_ofNat h] at hlt
              omega },
          Int32.ofInt t.next)
  else none

/-- Changes the row with this key, if there is one. -/
def modify (t : AutoTable α) (id : Int32) (f : α → α) : AutoTable α :=
  let rows := t.rows.map fun r => if r.1 = id then (r.1, f r.2) else r
  have hkeys : rows.map Prod.fst = t.rows.map Prod.fst := by
    rw [List.map_map]
    refine List.map_congr_left fun r _ => ?_
    simp only [Function.comp]
    split <;> rfl
  have hmem : ∀ r ∈ rows, ∃ r' ∈ t.rows, r'.1 = r.1 := by
    intro r hr
    have hk : r.1 ∈ t.rows.map Prod.fst := hkeys ▸ List.mem_map_of_mem hr
    simpa using List.mem_map.mp hk
  { rows := rows
    next := t.next
    next_pos := t.next_pos
    pos := fun r hr => by
      obtain ⟨r', hr', he⟩ := hmem r hr
      exact he ▸ t.pos r' hr'
    below := fun r hr => by
      obtain ⟨r', hr', he⟩ := hmem r hr
      exact he ▸ t.below r' hr'
    nodup := hkeys ▸ t.nodup }

/-- Changes every row. -/
def map (t : AutoTable α) (f : α → α) : AutoTable α :=
  let rows := t.rows.map fun r => (r.1, f r.2)
  have hkeys : rows.map Prod.fst = t.rows.map Prod.fst := by
    rw [List.map_map]
    rfl
  have hmem : ∀ r ∈ rows, ∃ r' ∈ t.rows, r'.1 = r.1 := by
    intro r hr
    obtain ⟨r', hr', rfl⟩ := List.mem_map.mp hr
    exact ⟨r', hr', rfl⟩
  { rows := rows
    next := t.next
    next_pos := t.next_pos
    pos := fun r hr => by
      obtain ⟨r', hr', he⟩ := hmem r hr
      exact he ▸ t.pos r' hr'
    below := fun r hr => by
      obtain ⟨r', hr', he⟩ := hmem r hr
      exact he ▸ t.below r' hr'
    nodup := hkeys ▸ t.nodup }

theorem get_map (t : AutoTable α) (f : α → α) (id : Int32) :
    (t.map f).get id = (t.get id).map f := by
  have hrows : ∀ rows : List (Int32 × α),
      ((rows.map fun r => (r.1, f r.2)).find? (·.1 = id)).map Prod.snd =
        ((rows.find? (·.1 = id)).map Prod.snd).map f := by
    intro rows
    induction rows with
    | nil => rfl
    | cons r rows ih =>
      by_cases hr : r.1 = id
      · simp [hr]
      · simpa [List.find?_cons_of_neg, hr] using ih
  exact hrows t.rows

theorem get_eq_some {t : AutoTable α} {id : Int32} {a : α} (h : t.get id = some a) :
    (id, a) ∈ t.rows := by
  obtain ⟨r, hr, rfl⟩ := Option.map_eq_some_iff.mp h
  have hk := List.find?_some hr
  simp only [decide_eq_true_eq] at hk
  exact hk ▸ List.mem_of_find?_eq_some hr

theorem pos_of_get {t : AutoTable α} {id : Int32} {a : α} (h : t.get id = some a) :
    0 < id.toInt :=
  t.pos _ (get_eq_some h)

/-- No row has the key that stands for none. -/
theorem get_neg_one (t : AutoTable α) : t.get (-1) = none := by
  cases h : t.get (-1) with
  | none => rfl
  | some a => exact absurd (pos_of_get h) (by decide)

theorem length_insert {t t' : AutoTable α} {a : α} {k : Int32} (h : t.insert a = some (t', k)) :
    t'.rows.length = t.rows.length + 1 := by
  unfold insert at h
  split at h
  · cases h; simp
  · cases h

theorem get_insert {t t' : AutoTable α} {a : α} {k : Int32} (h : t.insert a = some (t', k)) :
    t.get k = none ∧ ∀ id, t'.get id = if id = k then some a else t.get id := by
  unfold insert at h
  split at h
  · next hlt =>
    simp only [Option.some.injEq, Prod.mk.injEq] at h
    obtain ⟨rfl, rfl⟩ := h
    have hnone : t.rows.find? (·.1 = Int32.ofInt t.next) = none := by
      rw [List.find?_eq_none]
      intro r hr he
      have hb := t.below r hr
      rw [of_decide_eq_true he, toInt_ofNat hlt] at hb
      omega
    refine ⟨by simp [get, hnone], fun id => ?_⟩
    by_cases hid : id = Int32.ofInt t.next
    · subst hid
      simp [get, List.find?_append, hnone]
    · have hne : ¬ Int32.ofInt t.next = id := fun h => hid h.symm
      simp [get, List.find?_append, hid, hne]
  · cases h

theorem get_modify (t : AutoTable α) (id : Int32) (f : α → α) (k : Int32) :
    (t.modify id f).get k = if k = id then (t.get k).map f else t.get k := by
  have hrows : ∀ rows : List (Int32 × α),
      ((rows.map fun r => if r.1 = id then (r.1, f r.2) else r).find? (·.1 = k)).map Prod.snd =
        if k = id then ((rows.find? (·.1 = k)).map Prod.snd).map f
        else (rows.find? (·.1 = k)).map Prod.snd := by
    intro rows
    induction rows with
    | nil => simp
    | cons r rows ih =>
      obtain ⟨j, a⟩ := r
      by_cases hj : j = k
      · subst hj
        by_cases hid : j = id <;> simp [hid]
      · rw [List.map_cons, List.find?_cons_of_neg (l := rows) (by simpa using hj),
          List.find?_cons_of_neg]
        · exact ih
        · split <;> simpa using hj
  exact hrows t.rows

end AutoTable

end MyChat
