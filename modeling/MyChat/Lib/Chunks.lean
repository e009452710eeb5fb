import MyChat.Lib.Bytes

/-! Receivers that keep nothing between chunks: each chunk alone decides which
items it yields and whether the receiver goes on. On such a receiver a stream
of frames arrives whole only when the chunks are the frames. -/

namespace MyChat.Chunks

variable {β φ : Type}

/-- What a chunk yields, and whether the receiver survives it. -/
abbrev Receiver (β : Type) := Bytes → List β × Bool

def feed (d : Receiver β) : List Bytes → List β
  | [] => []
  | c :: cs => (d c).1 ++ if (d c).2 then feed d cs else []

/-- A way to cut a stream into non-empty chunks. -/
def IsCut (cuts : List Bytes) (stream : Bytes) : Prop :=
  cuts.flatten = stream ∧ ∀ c ∈ cuts, c ≠ []

/-- Chunks of one byte each. -/
def singles (stream : Bytes) : List Bytes := stream.map fun b => [b]

theorem singles_isCut (stream : Bytes) : IsCut (singles stream) stream := by
  constructor
  · rw [singles, ← List.flatMap_def, List.flatMap_singleton']
  · intro c hc
    obtain ⟨b, -, rfl⟩ := List.mem_map.mp hc
    simp

theorem feed_append {d : Receiver β} {a b : List Bytes} (h : ∀ c ∈ a, (d c).2 = true) :
    feed d (a ++ b) = feed d a ++ feed d b := by
  induction a with
  | nil => rfl
  | cons c a ih =>
    rw [List.cons_append, feed, feed, h c (by simp), ih fun e he => h e (by simp [he])]
    simp

theorem feed_length_le {d : Receiver β} (h : ∀ c, (d c).1.length ≤ 1) (cuts : List Bytes) :
    (feed d cuts).length ≤ cuts.length := by
  induction cuts with
  | nil => exact Nat.le_refl 0
  | cons c cuts ih =>
    have hc := h c
    rw [feed, List.length_append]
    split
    · simp only [List.length_cons]; omega
    · simp only [List.length_nil, List.length_cons]; omega

theorem feed_nil_of_forall {d : Receiver β} {cuts : List Bytes} (h : ∀ c ∈ cuts, (d c).1 = []) :
    feed d cuts = [] := by
  induction cuts with
  | nil => rfl
  | cons c cuts ih =>
    rw [feed, h c (by simp), ih fun e he => h e (by simp [he])]
    simp

/-- Frames with their bytes and the item each one carries. -/
structure Format (φ β : Type) where
  bytes : φ → Bytes
  item : φ → β

namespace Format

variable (F : Format φ β)

def stream (fs : List φ) : Bytes := fs.flatMap F.bytes

/-- The receiver yields exactly the items of the frames, in order. -/
def Delivers (d : Receiver β) (fs : List φ) (cuts : List Bytes) : Prop :=
  feed d cuts = fs.map F.item

variable {F} {d : Receiver β} {fs : List φ}

theorem feed_aligned (h : ∀ f ∈ fs, d (F.bytes f) = ([F.item f], true)) :
    feed d (fs.map F.bytes) = fs.map F.item := by
  induction fs with
  | nil => rfl
  | cons f fs ih =>
    rw [List.map_cons, feed, h f (by simp), ih fun g hg => h g (by simp [hg])]
    simp

theorem length_le_flatten {gs : List (List φ)} (hne : ∀ g ∈ gs, g ≠ []) :
    gs.length ≤ gs.flatten.length := by
  induction gs with
  | nil => exact Nat.le_refl 0
  | cons g gs ih =>
    have hg : 1 ≤ g.length := List.length_pos_iff.mpr (hne g (by simp))
    have hgs := ih fun e he => hne e (by simp [he])
    rw [List.flatten_cons, List.length_append, List.length_cons]
    omega

/-- A receiver that yields one item a chunk needs as many chunks as frames. -/
theorem Delivers.length_le (h1 : ∀ c, (d c).1.length ≤ 1) {cuts : List Bytes}
    (h : F.Delivers d fs cuts) : fs.length ≤ cuts.length := by
  have hl := feed_length_le h1 cuts
  rwa [h, List.length_map] at hl

/-- As many groups as elements: one element each. -/
theorem length_flatten_eq {gs : List (List φ)} (hne : ∀ g ∈ gs, g ≠ [])
    (h : gs.flatten.length ≤ gs.length) : ∀ g ∈ gs, g.length = 1 := by
  induction gs with
  | nil => simp
  | cons g gs ih =>
    have hg : 1 ≤ g.length := List.length_pos_iff.mpr (hne g (by simp))
    have hgs := length_le_flatten fun e he => hne e (List.mem_cons_of_mem g he)
    simp only [List.flatten_cons, List.length_append, List.length_cons] at h
    intro e he
    rcases List.mem_cons.mp he with rfl | he
    · omega
    · exact ih (fun e he => hne e (by simp [he])) (by omega) e he

/-- Chunks made of whole frames deliver exactly when each is one frame. -/
theorem delivers_groups_iff (h1 : ∀ c, (d c).1.length ≤ 1) {gs : List (List φ)}
    (hne : ∀ g ∈ gs, g ≠ []) (hd : ∀ f ∈ gs.flatten, d (F.bytes f) = ([F.item f], true)) :
    F.Delivers d gs.flatten (gs.map F.stream) ↔ ∀ g ∈ gs, g.length = 1 := by
  constructor
  · intro h
    have hl := Delivers.length_le h1 h
    rw [List.length_map] at hl
    exact length_flatten_eq hne hl
  · intro h
    have hmap : gs.map F.stream = gs.flatten.map F.bytes := by
      clear hd hne
      induction gs with
      | nil => rfl
      | cons g gs ih =>
        obtain ⟨f, rfl⟩ := List.length_eq_one_iff.mp (h g (by simp))
        rw [List.map_cons, List.flatten_cons, ih fun e he => h e (by simp [he])]
        simp [stream]
    rw [Delivers, hmap, feed_aligned hd]

/-- A chunk that stops the receiver before its frame was handed over leaves
that frame and all later ones undelivered. -/
theorem not_delivers_stop {pre post : List φ} {f : φ} {c : Bytes} {cs : List Bytes}
    (hd : ∀ f ∈ pre, d (F.bytes f) = ([F.item f], true)) (hc : d c = ([], false)) :
    ¬ F.Delivers d (pre ++ f :: post) (pre.map F.bytes ++ c :: cs) := by
  intro h
  have halive : ∀ e ∈ pre.map F.bytes, (d e).2 = true := by
    intro e he
    obtain ⟨g, hg, rfl⟩ := List.mem_map.mp he
    rw [hd g hg]
  rw [Delivers, feed_append halive, feed_aligned hd, feed, hc] at h
  have hl := congrArg List.length h
  simp at hl

/-- A receiver that yields nothing for a single byte delivers under every cut
into admissible chunks only what has no frames. -/
theorem delivers_all_iff {P : Bytes → Prop} (hP : ∀ b, P [b]) (hbyte : ∀ b, (d [b]).1 = []) :
    (∀ cuts, IsCut cuts (F.stream fs) → (∀ c ∈ cuts, P c) → F.Delivers d fs cuts) ↔ fs = [] := by
  constructor
  · intro h
    have hs := h _ (singles_isCut _) fun c hc => by
      obtain ⟨b, -, rfl⟩ := List.mem_map.mp hc
      exact hP b
    rw [Delivers, feed_nil_of_forall] at hs
    · simpa using hs.symm
    · intro c hc
      obtain ⟨b, -, rfl⟩ := List.mem_map.mp hc
      exact hbyte b
  · rintro rfl cuts ⟨hflat, hcut⟩ -
    cases cuts with
    | nil => rfl
    | cons c cuts =>
      have hc : c = [] := by
        have hl := congrArg List.length hflat
        simp only [stream, List.flatMap_nil, List.length_nil, List.flatten_cons,
          List.length_append] at hl
        exact List.length_eq_zero_iff.mp (by omega)
      exact absurd hc (hcut c (by simp))

end Format

end MyChat.Chunks
