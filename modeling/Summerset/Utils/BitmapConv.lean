import Summerset.Utils.BitmapSet
import Mathlib.Data.List.Sort
import Mathlib.Order.Interval.Finset.Nat

/-!
# Conversions between `Bitmap` and index collections (`utils/bitmap.rs`)

The five `From<(u8, _)>` impls share one body (`Bitmap.fromOnes`): a cleared
bitmap of the given size, then `set(idx, true).unwrap()` for each index in the
collection's order. `HashSet` iteration order is not fixed, so a `HashSet<u8>`
is its elements in some order, and every statement here holds for every order.
The four impls into `Vec<u8>` and `HashSet<u8>` filter `iter()`.

* `fromOnes_eq`: for a size `n ≥ 1` and indices below `n` the result is the
  set of `n` bits holding exactly those indices; it is reachable in the sense
  of `Summerset.Utils.BitmapSet`.
* `fromOnes_eq_none_iff`: a constructor panics iff `n = 0` or some index is
  at least `n`.
* `toVec_eq`, `mem_toVec`: `Vec::from(b)` is the true indices in increasing
  order.
* `conversions` collects these with the two round trips:
  `Vec::from(Bitmap::from((n, v))) = sort(dedup(v))` and
  `Bitmap::from((b.size(), Vec::from(&b))) = b`.
-/

namespace Summerset.Utils

namespace Bitmap

open FixedBitSet

/-- The bits after setting the indices of `l`, one by one. -/
def setAll (bs : List Bool) (l : List Nat) : List Bool := l.foldl (fun cs i => cs.set i true) bs

@[simp] theorem length_setAll (l : List Nat) (bs : List Bool) : (setAll bs l).length = bs.length := by
  induction l generalizing bs <;> simp_all [setAll]

theorem memSet_setAll : ∀ (l : List Nat) (bs : List Bool), (∀ i ∈ l, i < bs.length) →
    memSet (setAll bs l) = memSet bs ∪ l.toFinset
  | [], _, _ => by simp [setAll]
  | i :: l, bs, h => by
    have hi := h i (List.mem_cons_self _ _)
    have ih := memSet_setAll l (bs.set i true) fun j hj => by
      simpa using h j (List.mem_cons_of_mem _ hj)
    simp only [setAll, List.foldl_cons] at ih ⊢
    rw [ih, memSet_set _ _ _ hi, if_pos rfl, List.toFinset_cons, Finset.insert_union,
      Finset.union_insert]

theorem setTrueUnwrap_ofBits (bs : List Bool) (i : Nat) (h : i < bs.length) :
    (Bitmap.ofBits bs).setTrueUnwrap i = some (Bitmap.ofBits (bs.set i true)) := by
  simp [setTrueUnwrap, set_ofBits_of_lt _ _ _ h]

theorem setTrueUnwrap_of_le (b : Bitmap) (i : Nat) (h : b.bitset.len ≤ i) :
    b.setTrueUnwrap i = none := by
  simp [setTrueUnwrap, set_of_le _ _ _ h]

theorem foldlM_setTrueUnwrap : ∀ (l : List Nat) (bs : List Bool), (∀ i ∈ l, i < bs.length) →
    l.foldlM setTrueUnwrap (Bitmap.ofBits bs) = some (Bitmap.ofBits (setAll bs l))
  | [], _, _ => rfl
  | i :: l, bs, h => by
    rw [List.foldlM_cons, setTrueUnwrap_ofBits _ _ (h i (List.mem_cons_self _ _))]
    exact foldlM_setTrueUnwrap l _ fun j hj => by simpa using h j (List.mem_cons_of_mem _ hj)

theorem foldlM_setTrueUnwrap_none : ∀ (l : List Nat) (bs : List Bool),
    (∃ i ∈ l, bs.length ≤ i) → l.foldlM setTrueUnwrap (Bitmap.ofBits bs) = none
  | i :: l, bs, ⟨j, hj, hle⟩ => by
    rw [List.foldlM_cons]
    by_cases hi : i < bs.length
    · rw [setTrueUnwrap_ofBits _ _ hi]
      refine foldlM_setTrueUnwrap_none l _ ⟨j, ?_, by simpa using hle⟩
      rcases List.mem_cons.mp hj with rfl | hj
      exacts [absurd hi (Nat.not_lt.mpr hle), hj]
    · rw [setTrueUnwrap_of_le (Bitmap.ofBits bs) i (Nat.not_lt.mp hi)]; rfl

theorem foldlM_setTrueUnwrap_reachable : ∀ (l : List Nat) {b b' : Bitmap}, b.Reachable →
    l.foldlM setTrueUnwrap b = some b' → b'.Reachable
  | [], _, _, hb, h => Option.some.inj h ▸ hb
  | i :: l, b, _, hb, h => by
    rw [List.foldlM_cons] at h
    cases hs : b.setTrueUnwrap i with
    | none => rw [hs] at h; cases h
    | some b1 =>
      rw [hs] at h
      refine foldlM_setTrueUnwrap_reachable l ?_ h
      have hset : (b.set i true).2 = b1 := by
        unfold setTrueUnwrap at hs
        split at hs <;> simp_all
      exact hset ▸ Reachable.set i true hb

/-! ## `From<(u8, _)> for Bitmap` -/

theorem fromOnes_eq (n : Nat) (l : List Nat) (hn : 0 < n) (hl : ∀ i ∈ l, i < n) :
    fromOnes n l = some (Bitmap.ofBits (setAll (List.replicate n false) l)) := by
  simp only [fromOnes, new_eq n false hn, Option.some_bind]
  exact foldlM_setTrueUnwrap l _ (by simpa using hl)

theorem fromOnes_eq_none_iff (n : Nat) (l : List Nat) :
    fromOnes n l = none ↔ n = 0 ∨ ∃ i ∈ l, n ≤ i := by
  rcases Nat.eq_zero_or_pos n with rfl | hn
  · simp [fromOnes, new]
  · by_cases hl : ∃ i ∈ l, n ≤ i
    · simp only [fromOnes, new_eq n false hn, Option.some_bind]
      simp [foldlM_setTrueUnwrap_none l (List.replicate n false) (by simpa using hl), hl]
    · push_neg at hl
      simp [fromOnes_eq n l hn hl, Nat.pos_iff_ne_zero.mp hn]
      exact hl

theorem fromOnes_spec (n : Nat) (l : List Nat) (h1 : 1 ≤ n) (h2 : n ≤ 255) (hl : ∀ i ∈ l, i < n) :
    ∃ b, fromOnes n l = some b ∧ b.Reachable ∧ b.size = n ∧ b.abs.elems = l.toFinset := by
  have hr : (Bitmap.ofBits (List.replicate n false)).Reachable :=
    Reachable.new h1 h2 (new_eq n false h1)
  have hlen : (setAll (List.replicate n false) l).length ≤ 255 := by simpa using h2
  refine ⟨_, fromOnes_eq n l h1 hl, ?_, ?_, ?_⟩
  · exact foldlM_setTrueUnwrap_reachable l hr (foldlM_setTrueUnwrap l _ (by simpa using hl))
  · rw [size_ofBits _ hlen]; simp
  · rw [abs_ofBits _ hlen]
    show memSet _ = _
    rw [memSet_setAll l _ (by simpa using hl)]
    simp

theorem fromOnes_eq_iff {n m : Nat} {l l' : List Nat} {b c : Bitmap}
    (hb : fromOnes n l = some b) (hc : fromOnes m l' = some c) :
    b = c ↔ n = m ∧ l.toFinset = l'.toFinset := by
  have hn : 0 < n := Nat.pos_of_ne_zero fun h => by simp [(fromOnes_eq_none_iff n l).mpr (.inl h)] at hb
  have hm : 0 < m := Nat.pos_of_ne_zero fun h => by simp [(fromOnes_eq_none_iff m l').mpr (.inl h)] at hc
  have hl : ∀ i ∈ l, i < n := fun i hi => Nat.not_le.mp fun h => by
    simp [(fromOnes_eq_none_iff n l).mpr (.inr ⟨i, hi, h⟩)] at hb
  have hl' : ∀ i ∈ l', i < m := fun i hi => Nat.not_le.mp fun h => by
    simp [(fromOnes_eq_none_iff m l').mpr (.inr ⟨i, hi, h⟩)] at hc
  rw [fromOnes_eq n l hn hl, Option.some.injEq] at hb
  rw [fromOnes_eq m l' hm hl', Option.some.injEq] at hc
  subst hb hc
  have e1 := memSet_setAll l (List.replicate n false) (by simpa using hl)
  have e2 := memSet_setAll l' (List.replicate m false) (by simpa using hl')
  simp only [memSet_replicate_false, Finset.empty_union] at e1 e2
  constructor
  · intro h
    have h' := Bitmap.mk.inj h
    rw [ofBits_inj] at h'
    have hlen := congrArg List.length h'
    simp only [length_setAll, List.length_replicate] at hlen
    exact ⟨hlen, e1 ▸ e2 ▸ congrArg memSet h'⟩
  · rintro ⟨rfl, hs⟩
    have : setAll (List.replicate n false) l = setAll (List.replicate n false) l' :=
      eq_of_memSet_eq (by simp) (by rw [e1, e2, hs])
    rw [this]

/-! ## `From<Bitmap> for Vec<u8>` and `HashSet<u8>` -/

theorem trueIdxs_map (l : List Nat) (c : Nat → Bool) :
    trueIdxs (l.map fun i => (i, c i)) = l.filter c := by
  induction l with
  | nil => rfl
  | cons i l ih => cases h : c i <;> simp [trueIdxs, List.filter_cons, h] at ih ⊢ <;> exact ih

theorem toVec_eq (b : Bitmap) : b.toVec = (List.range b.size).filter fun i => b.bitset.contains i := by
  rw [toVec, pairs_eq, trueIdxs_map]

theorem toVec_sorted (b : Bitmap) : b.toVec.Pairwise (· < ·) := by
  rw [toVec_eq]; exact (List.pairwise_lt_range _).filter _

theorem mem_toVec {b : Bitmap} (hb : b.Wf) (x : Nat) : x ∈ b.toVec ↔ x ∈ b.abs.elems := by
  rw [toVec_eq, List.mem_filter, List.mem_range]
  constructor
  · rintro ⟨hx, hc⟩; simpa [contains_eq_mem_abs hb hx] using hc
  · intro hx
    have hlt : x < b.size := b.abs.lt_size x hx
    exact ⟨hlt, by simpa [contains_eq_mem_abs hb hlt] using hx⟩

theorem mem_toHashSet (b : Bitmap) (x : Nat) : x ∈ b.toHashSet.elems ↔ x ∈ b.toVec := by
  simp [toHashSet, HashSetU8.ofList, toVec]

/-! ## The conversion laws -/

theorem range'_toFinset (start stop : Nat) :
    (List.range' start (stop - start)).toFinset = Finset.Ico start stop := by
  ext x; simp only [List.mem_toFinset, List.mem_range'_1, Finset.mem_Ico]; omega

theorem toVec_fromOnes (n : Nat) (v : List Nat) (h1 : 1 ≤ n) (h2 : n ≤ 255) (hv : ∀ i ∈ v, i < n) :
    (fromOnes n v).map toVec = some (v.dedup.mergeSort) := by
  obtain ⟨b, hb, hr, -, he⟩ := fromOnes_spec n v h1 h2 hv
  rw [hb, Option.map_some', Option.some.injEq]
  have hperm := List.mergeSort_perm v.dedup fun a b => decide (a ≤ b)
  refine @List.eq_of_perm_of_sorted _ (· ≤ ·) _ _ _ ?_ ((toVec_sorted b).imp Nat.le_of_lt)
    (List.sorted_mergeSort' v.dedup)
  rw [List.perm_ext_iff_of_nodup (toVec_sorted b).nodup (hperm.nodup_iff.mpr (List.nodup_dedup v))]
  intro x
  rw [mem_toVec hr.wf, he, List.mem_toFinset, hperm.mem_iff, List.mem_dedup]

theorem fromOnes_toVec {b : Bitmap} (hb : b.Reachable) : fromOnes b.size b.toVec = some b := by
  obtain ⟨bs, rfl, h1, h2⟩ := hb.wf.exists
  have hv : ∀ i ∈ (Bitmap.ofBits bs).toVec, i < bs.length := fun i hi => by
    have := (Bitmap.ofBits bs).abs.lt_size i ((mem_toVec hb.wf i).mp hi)
    rwa [abs_ofBits bs h2] at this
  rw [size_ofBits bs h2, fromOnes_eq _ _ h1 hv]
  congr 2
  refine eq_of_memSet_eq (by simp) ?_
  rw [memSet_setAll _ _ (by simpa using hv), memSet_replicate_false, Finset.empty_union]
  ext x
  rw [List.mem_toFinset, mem_toVec hb.wf, abs_ofBits bs h2]

/-- The conversion laws, over every size and index collection. -/
structure FromLaws : Prop where
  /-- For `1 ≤ n ≤ 255` and indices below `n`, each constructor builds the
  reachable bitmap of size `n` holding exactly the collection's indices. -/
  range : ∀ n start stop, 1 ≤ n → n ≤ 255 → (∀ i, start ≤ i → i < stop → i < n) →
    ∃ b, fromRange n start stop = some b ∧ b.Reachable ∧ b.size = n ∧
      b.abs.elems = Finset.Ico start stop
  vec : ∀ n v, 1 ≤ n → n ≤ 255 → (∀ i ∈ v, i < n) →
    ∃ b, fromVec n v = some b ∧ b.Reachable ∧ b.size = n ∧ b.abs.elems = v.toFinset
  vecRef : ∀ n v, 1 ≤ n → n ≤ 255 → (∀ i ∈ v, i < n) →
    ∃ b, fromVecRef n v = some b ∧ b.Reachable ∧ b.size = n ∧ b.abs.elems = v.toFinset
  hashSet : ∀ n (s : HashSetU8), 1 ≤ n → n ≤ 255 → (∀ i ∈ s.elems, i < n) →
    ∃ b, fromHashSet n s = some b ∧ b.Reachable ∧ b.size = n ∧ b.abs.elems = s.elems.toFinset
  hashSetRef : ∀ n (s : HashSetU8), 1 ≤ n → n ≤ 255 → (∀ i ∈ s.elems, i < n) →
    ∃ b, fromHashSetRef n s = some b ∧ b.Reachable ∧ b.size = n ∧
      b.abs.elems = s.elems.toFinset
  /-- Every constructor is `fromOnes` on its collection's indices; two results
  agree iff their sizes and index sets do. -/
  eq_iff : ∀ n m l l' b c, fromOnes n l = some b → fromOnes m l' = some c →
    (b = c ↔ n = m ∧ l.toFinset = l'.toFinset)
  /-- `Vec::from(b)` lists the true indices in strictly increasing order, and
  `HashSet::from(b)` holds the same indices. -/
  vec_sorted : ∀ b : Bitmap, b.Reachable → b.toVec.Pairwise (· < ·) ∧
    (∀ x, x ∈ b.toVec ↔ x ∈ b.abs.elems) ∧ (∀ x, x ∈ b.toHashSet.elems ↔ x ∈ b.toVec)
  /-- `Vec::from(Bitmap::from((n, v))) = sort(dedup(v))`. -/
  vec_roundTrip : ∀ n v, 1 ≤ n → n ≤ 255 → (∀ i ∈ v, i < n) →
    (fromVec n v).map toVec = some (v.dedup.mergeSort)
  /-- `Bitmap::from((b.size(), Vec::from(&b))) = b`. -/
  bitmap_roundTrip : ∀ b : Bitmap, b.Reachable → fromVec b.size b.toVec = some b
  /-- A constructor panics iff `n = 0` or some index is at least `n`. -/
  panic_iff : ∀ n l, fromOnes n l = none ↔ n = 0 ∨ ∃ i ∈ l, n ≤ i
  range_panic_iff : ∀ n start stop,
    fromRange n start stop = none ↔ n = 0 ∨ ∃ i, start ≤ i ∧ i < stop ∧ n ≤ i

theorem conversions : FromLaws where
  range n start stop h1 h2 h := by
    obtain ⟨b, hb, hr, hs, he⟩ := fromOnes_spec n (List.range' start (stop - start)) h1 h2
      fun i hi => by rw [List.mem_range'_1] at hi; exact h i hi.1 (by omega)
    exact ⟨b, hb, hr, hs, he.trans (range'_toFinset start stop)⟩
  vec n v h1 h2 h := fromOnes_spec n v h1 h2 h
  vecRef n v h1 h2 h := fromOnes_spec n v h1 h2 h
  hashSet n s h1 h2 h := fromOnes_spec n s.elems h1 h2 h
  hashSetRef n s h1 h2 h := fromOnes_spec n s.elems h1 h2 h
  eq_iff _ _ _ _ _ _ hb hc := fromOnes_eq_iff hb hc
  vec_sorted b hb := ⟨toVec_sorted b, mem_toVec hb.wf, mem_toHashSet b⟩
  vec_roundTrip n v h1 h2 h := toVec_fromOnes n v h1 h2 h
  bitmap_roundTrip _ hb := fromOnes_toVec hb
  panic_iff := fromOnes_eq_none_iff
  range_panic_iff n start stop := by
    rw [fromRange, fromOnes_eq_none_iff]
    simp only [List.mem_range'_1]
    constructor <;> rintro (h | ⟨i, h⟩)
    exacts [.inl h, .inr ⟨i, by omega⟩, .inl h, .inr ⟨i, by omega⟩]

end Bitmap

end Summerset.Utils
