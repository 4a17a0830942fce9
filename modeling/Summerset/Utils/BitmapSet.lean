import Summerset.Utils.Bitmap
import Mathlib.Data.Finset.Card

/-!
# `Bitmap` refines a finite set of indices

`IdxSet` says what a bitmap is for: a size and a set of indices below it,
with the operations `Bitmap` offers, written on sets. `Bitmap.abs` reads a
bitmap through `get` (`i ∈ abs b ↔ get(b, i) = Ok(true)`).

Every bitmap built by `new` and then `set`, `flip`, `union` and `clear`
(`Reachable`) keeps its padding clear (`Reachable.wf`): its set is
`FixedBitSet.ofBits` of its own bits. From that:

* `eq_iff_abs_eq`: the derived `==` on `Bitmap` is equality of `abs`;
* `abs_set`, `abs_flip`, `abs_union`, `abs_clear`: each operation is the
  set operation on `abs`, including its error cases (an error leaves the
  bitmap as it was), and the size never changes;
* `count_eq_card`: `count` is the number of set indices, with no `u8` wrap;
* `next_iterate`, `pairs_eq`: the iterator yields `(i, i ∈ abs b)` for
  `i = 0, …, size - 1` and then `None` forever, also at size 255.

`Bitmap.refines_idxSet` collects these for every reachable bitmap.
-/

namespace Summerset.Utils

open FixedBitSet

/-! ## Index sets of bit lists -/

/-- The indices of `bs` holding `true`. -/
def memSet (bs : List Bool) : Finset Nat :=
  (Finset.range bs.length).filter fun i => bs[i]? = some true

@[simp] theorem mem_memSet {bs : List Bool} {i : Nat} : i ∈ memSet bs ↔ bs[i]? = some true := by
  simp only [memSet, Finset.mem_filter, Finset.mem_range, and_iff_right_iff_imp]
  intro h; exact (List.getElem?_eq_some_iff.mp h).1

theorem lt_of_mem_memSet {bs : List Bool} {i : Nat} (h : i ∈ memSet bs) : i < bs.length :=
  (List.getElem?_eq_some_iff.mp (mem_memSet.mp h)).1

theorem memSet_set (bs : List Bool) (i : Nat) (e : Bool) (h : i < bs.length) :
    memSet (bs.set i e) = if e then insert i (memSet bs) else (memSet bs).erase i := by
  ext j
  by_cases hij : i = j
  · subst hij; cases e <;> simp [List.getElem?_set, h]
  · cases e <;> simp [List.getElem?_set, hij, Ne.symm hij]

theorem memSet_map_not (bs : List Bool) :
    memSet (bs.map not) = Finset.range bs.length \ memSet bs := by
  ext j
  by_cases hj : j < bs.length
  · simp [List.getElem?_eq_getElem hj, hj]
  · simp [List.getElem?_eq_none (Nat.not_lt.mp hj), hj]

theorem memSet_zipWith_or (bs cs : List Bool) (h : bs.length = cs.length) :
    memSet (List.zipWith (· || ·) bs cs) = memSet bs ∪ memSet cs := by
  ext j
  by_cases hj : j < bs.length
  · simp [List.getElem?_zipWith, List.getElem?_eq_getElem hj,
      List.getElem?_eq_getElem (h ▸ hj : j < cs.length)]
  · simp [List.getElem?_zipWith, List.getElem?_eq_none (Nat.not_lt.mp hj),
      List.getElem?_eq_none (h ▸ Nat.not_lt.mp hj : cs.length ≤ j)]

@[simp] theorem memSet_replicate_false (n : Nat) : memSet (List.replicate n false) = ∅ := by
  ext j
  simp only [mem_memSet, List.getElem?_replicate, Finset.not_mem_empty, iff_false]
  split <;> simp

theorem card_memSet (bs : List Bool) : (memSet bs).card = bs.count true := by
  induction bs using List.reverseRecOn with
  | nil => rfl
  | append_singleton bs x ih =>
    have hlow : (Finset.range bs.length).filter (fun i => (bs ++ [x])[i]? = some true) =
        memSet bs :=
      Finset.filter_congr fun i hi => by rw [List.getElem?_append_left (Finset.mem_range.mp hi)]
    have hnot : bs.length ∉ memSet bs := fun h => Nat.lt_irrefl _ (lt_of_mem_memSet h)
    simp only [memSet, List.length_append, List.length_singleton, Finset.range_succ,
      Finset.filter_insert, List.getElem?_concat_length, Option.some.injEq, hlow,
      List.count_append, ← ih]
    cases x <;> simp [Finset.card_insert_of_not_mem hnot]

theorem eq_of_memSet_eq {bs cs : List Bool} (hl : bs.length = cs.length)
    (hm : memSet bs = memSet cs) : bs = cs := by
  apply List.ext_getElem?
  intro j
  have h := Finset.ext_iff.mp hm j
  simp only [mem_memSet] at h
  by_cases hj : j < bs.length
  · rw [List.getElem?_eq_getElem hj, List.getElem?_eq_getElem (hl ▸ hj)] at h ⊢
    generalize bs[j] = x at h ⊢
    generalize cs[j] = y at h ⊢
    cases x <;> cases y <;> simp_all
  · rw [List.getElem?_eq_none (Nat.not_lt.mp hj), List.getElem?_eq_none (hl ▸ Nat.not_lt.mp hj)]

/-! ## The abstract model -/

/-- A size and a set of indices below it. -/
@[ext] structure IdxSet where
  size : Nat
  elems : Finset Nat
  lt_size : ∀ i ∈ elems, i < size

namespace IdxSet

/-- `set(i, f)`: index `i` becomes `f`; an index out of range changes nothing. -/
def set (s : IdxSet) (i : Nat) (f : Bool) : IdxSet :=
  if h : i < s.size then
    ⟨s.size, if f then insert i s.elems else s.elems.erase i, fun j hj => by
      split at hj
      · rcases Finset.mem_insert.mp hj with rfl | hj
        exacts [h, s.lt_size j hj]
      · exact s.lt_size j (Finset.mem_of_mem_erase hj)⟩
  else s

/-- `flip`: the complement within `[0, size)`. -/
def flip (s : IdxSet) : IdxSet :=
  ⟨s.size, Finset.range s.size \ s.elems, fun _ hj => Finset.mem_range.mp (Finset.sdiff_subset hj)⟩

/-- `union`: the union with a set of the same size; another size changes nothing. -/
def union (s t : IdxSet) : IdxSet :=
  if h : s.size = t.size then
    ⟨s.size, s.elems ∪ t.elems, fun j hj => by
      rcases Finset.mem_union.mp hj with hj | hj
      exacts [s.lt_size j hj, h ▸ t.lt_size j hj]⟩
  else s

/-- `clear`: no index set. -/
def clear (s : IdxSet) : IdxSet := ⟨s.size, ∅, fun _ h => absurd h (Finset.not_mem_empty _)⟩

@[simp] theorem size_set (s : IdxSet) (i : Nat) (f : Bool) : (s.set i f).size = s.size := by
  unfold set; split <;> rfl

@[simp] theorem size_flip (s : IdxSet) : s.flip.size = s.size := rfl

@[simp] theorem size_union (s t : IdxSet) : (s.union t).size = s.size := by
  unfold union; split <;> rfl

@[simp] theorem size_clear (s : IdxSet) : s.clear.size = s.size := rfl

theorem card_flip (s : IdxSet) : s.flip.elems.card = s.size - s.elems.card := by
  rw [flip, Finset.card_sdiff fun i hi => Finset.mem_range.mpr (s.lt_size i hi), Finset.card_range]

end IdxSet

/-- What a bitmap stands for: its size and `{i < size | get(i) = Ok(true)}`. -/
def Bitmap.abs (b : Bitmap) : IdxSet where
  size := b.size
  elems := (Finset.range b.size).filter fun i => (b.get i).toOption = some true
  lt_size := fun _ hi => Finset.mem_range.mp (Finset.mem_filter.mp hi).1

/-! ## Bitmaps with clear padding -/

/-- The bitmap over `ofBits bs`. -/
def Bitmap.ofBits (bs : List Bool) : Bitmap := ⟨FixedBitSet.ofBits bs⟩

/-- The representation invariant: the padding is clear, and the size is a `u8`
other than 0. -/
structure Bitmap.Wf (b : Bitmap) : Prop where
  canonical : b = Bitmap.ofBits b.bitset.bits
  pos : 0 < b.bitset.len
  le : b.bitset.len ≤ 255

namespace Bitmap

theorem wf_ofBits {bs : List Bool} (h1 : 0 < bs.length) (h2 : bs.length ≤ 255) :
    (Bitmap.ofBits bs).Wf :=
  ⟨by simp [Bitmap.ofBits], h1, h2⟩

theorem Wf.exists {b : Bitmap} (h : b.Wf) :
    ∃ bs, b = Bitmap.ofBits bs ∧ 0 < bs.length ∧ bs.length ≤ 255 := by
  have hl : b.bitset.len = b.bitset.bits.length :=
    congrArg (fun c : Bitmap => c.bitset.len) h.canonical
  exact ⟨b.bitset.bits, h.canonical, hl ▸ h.pos, hl ▸ h.le⟩

@[simp] theorem size_ofBits (bs : List Bool) (h : bs.length ≤ 255) :
    (Bitmap.ofBits bs).size = bs.length := by
  simp [size, Bitmap.ofBits]; omega

theorem get_ofBits (bs : List Bool) (i : Nat) :
    ((Bitmap.ofBits bs).get i).toOption = bs[i]? := by
  by_cases hi : i < bs.length
  · simp [get, Bitmap.ofBits, Nat.not_le.mpr hi, contains_ofBits _ _ hi,
      List.getD_eq_getElem?_getD, List.getElem?_eq_getElem hi, Except.toOption]
  · simp [get, Bitmap.ofBits, Nat.not_lt.mp hi, List.getElem?_eq_none (Nat.not_lt.mp hi),
      Except.toOption]

theorem abs_ofBits (bs : List Bool) (h : bs.length ≤ 255) :
    (Bitmap.ofBits bs).abs = ⟨bs.length, memSet bs, fun _ => lt_of_mem_memSet⟩ := by
  ext i
  · simp [abs, h]
  · simp only [abs, size_ofBits bs h, get_ofBits, Finset.mem_filter, Finset.mem_range, mem_memSet,
      and_iff_right_iff_imp]
    exact fun hi => (List.getElem?_eq_some_iff.mp hi).1

/-! ## The operations on bitmaps with clear padding -/

theorem new_eq (n : Nat) (ones : Bool) (h : 0 < n) :
    Bitmap.new n ones = some (Bitmap.ofBits (List.replicate n ones)) := by
  cases ones <;>
    simp [new, Nat.pos_iff_ne_zero.mp h, withCapacity_eq, setRangeAll_ofBits, Bitmap.ofBits,
      List.map_replicate]

theorem set_ofBits_of_lt (bs : List Bool) (i : Nat) (f : Bool) (h : i < bs.length) :
    (Bitmap.ofBits bs).set i f = (.ok (), Bitmap.ofBits (bs.set i f)) := by
  simp [set, Bitmap.ofBits, Nat.not_le.mpr h, FixedBitSet.set_ofBits _ _ _ h]

theorem set_of_le (b : Bitmap) (i : Nat) (f : Bool) (h : b.bitset.len ≤ i) :
    b.set i f = (.error s!"index {i} out of bound", b) := by
  simp [set, h]

theorem flip_ofBits (bs : List Bool) : (Bitmap.ofBits bs).flip = Bitmap.ofBits (bs.map not) := by
  simp [flip, Bitmap.ofBits, toggleRangeAll_ofBits]

theorem clear_ofBits (bs : List Bool) :
    (Bitmap.ofBits bs).clear = Bitmap.ofBits (bs.map fun _ => false) := by
  simp [clear, Bitmap.ofBits, FixedBitSet.clear_ofBits]

theorem union_ofBits (bs cs : List Bool) (h : bs.length = cs.length) (hle : bs.length ≤ 255) :
    (Bitmap.ofBits bs).union (Bitmap.ofBits cs) =
      (.ok (), Bitmap.ofBits (List.zipWith (· || ·) bs cs)) := by
  have hs : (Bitmap.ofBits bs).size = (Bitmap.ofBits cs).size := by
    rw [size_ofBits bs hle, size_ofBits cs (h ▸ hle), h]
  rw [union, if_pos hs]
  simp [Bitmap.ofBits, unionWith_ofBits _ _ h]

theorem union_of_ne (b c : Bitmap) (h : b.size ≠ c.size) :
    b.union c = (.error s!"unioning sizes mismatch: {b.size} != {c.size}", b) := by
  simp [union, h]

theorem count_ofBits (bs : List Bool) (h : bs.length ≤ 255) :
    (Bitmap.ofBits bs).count = bs.count true := by
  have := List.count_le_length true bs
  simp only [count, Bitmap.ofBits, countOnesAll_ofBits]; omega

/-! ## Reachable bitmaps -/

/-- Bitmaps built by `new(n, ones)` with `1 ≤ n ≤ 255`, then any sequence of
`set`, `flip`, `union` with another such bitmap, and `clear`. -/
inductive Reachable : Bitmap → Prop
  | new {n : Nat} {ones : Bool} {b : Bitmap} : 1 ≤ n → n ≤ 255 → Bitmap.new n ones = some b →
      Reachable b
  | set {b : Bitmap} (i : Nat) (f : Bool) : Reachable b → Reachable (b.set i f).2
  | flip {b : Bitmap} : Reachable b → Reachable b.flip
  | union {b c : Bitmap} : Reachable b → Reachable c → Reachable (b.union c).2
  | clear {b : Bitmap} : Reachable b → Reachable b.clear

theorem Reachable.wf {b : Bitmap} (h : Reachable b) : b.Wf := by
  induction h with
  | new h1 h2 hn =>
    rw [new_eq _ _ h1, Option.some.injEq] at hn
    exact hn ▸ wf_ofBits (by simpa using h1) (by simpa using h2)
  | set i f _ ih =>
    obtain ⟨bs, rfl, h1, h2⟩ := ih.exists
    by_cases hi : i < bs.length
    · rw [set_ofBits_of_lt _ _ _ hi]; exact wf_ofBits (by simpa using h1) (by simpa using h2)
    · rw [set_of_le _ _ _ (Nat.not_lt.mp hi)]; exact wf_ofBits h1 h2
  | flip _ ih =>
    obtain ⟨bs, rfl, h1, h2⟩ := ih.exists
    rw [flip_ofBits]; exact wf_ofBits (by simpa using h1) (by simpa using h2)
  | @union b c _ _ ihb ihc =>
    obtain ⟨bs, rfl, h1, h2⟩ := ihb.exists
    obtain ⟨cs, rfl, -, h3⟩ := ihc.exists
    by_cases hl : bs.length = cs.length
    · rw [union_ofBits _ _ hl h2]; exact wf_ofBits (by simpa [hl] using h1) (by simp [h2])
    · rw [union_of_ne _ _ (by simpa [h2, h3] using hl)]; exact wf_ofBits h1 h2
  | clear _ ih =>
    obtain ⟨bs, rfl, h1, h2⟩ := ih.exists
    rw [clear_ofBits]; exact wf_ofBits (by simpa using h1) (by simpa using h2)

/-! ## Refinement -/

theorem contains_of_size_le {b : Bitmap} (hb : b.Wf) {i : Nat} (h : b.size ≤ i) :
    b.bitset.contains i = false := by
  obtain ⟨bs, rfl, -, h2⟩ := hb.exists
  rw [size_ofBits bs h2] at h
  simp only [Bitmap.ofBits, FixedBitSet.contains, FixedBitSet.ofBits, List.getD_eq_getElem?_getD,
    List.getElem?_append_right h, List.getElem?_replicate]
  split <;> rfl

theorem contains_eq_mem_abs {b : Bitmap} (hb : b.Wf) {i : Nat} (h : i < b.size) :
    b.bitset.contains i = decide (i ∈ b.abs.elems) := by
  obtain ⟨bs, rfl, -, h2⟩ := hb.exists
  rw [size_ofBits bs h2] at h
  rw [abs_ofBits bs h2]
  simp [Bitmap.ofBits, contains_ofBits _ _ h, List.getD_eq_getElem?_getD, List.getElem?_eq_getElem h]

theorem eq_iff_abs_eq {b c : Bitmap} (hb : b.Wf) (hc : c.Wf) : b = c ↔ b.abs = c.abs := by
  obtain ⟨bs, rfl, -, h2⟩ := hb.exists
  obtain ⟨cs, rfl, -, h3⟩ := hc.exists
  refine ⟨fun h => h ▸ rfl, fun h => ?_⟩
  rw [abs_ofBits bs h2, abs_ofBits cs h3, IdxSet.mk.injEq] at h
  rw [eq_of_memSet_eq h.1 h.2]

theorem abs_set {b : Bitmap} (hb : b.Wf) (i : Nat) (f : Bool) :
    (b.set i f).2.abs = b.abs.set i f := by
  obtain ⟨bs, rfl, -, h2⟩ := hb.exists
  by_cases hi : i < bs.length
  · rw [set_ofBits_of_lt _ _ _ hi, abs_ofBits _ (by simpa using h2), abs_ofBits _ h2]
    simp [IdxSet.set, hi, memSet_set _ _ _ hi]
  · rw [set_of_le _ _ _ (Nat.not_lt.mp hi), abs_ofBits _ h2]
    simp [IdxSet.set, hi]

theorem set_ok_iff {b : Bitmap} (hb : b.Wf) (i : Nat) (f : Bool) :
    (b.set i f).1 = .ok () ↔ i < b.size := by
  obtain ⟨bs, rfl, -, h2⟩ := hb.exists
  by_cases hi : i < bs.length
  · simp [set_ofBits_of_lt _ _ _ hi, size_ofBits bs h2, hi]
  · simp [set_of_le (Bitmap.ofBits bs) i f (Nat.not_lt.mp hi), size_ofBits bs h2, hi]

theorem set_of_size_le {b : Bitmap} (hb : b.Wf) {i : Nat} (f : Bool) (h : b.size ≤ i) :
    (b.set i f).2 = b := by
  obtain ⟨bs, rfl, -, h2⟩ := hb.exists
  rw [set_of_le _ _ _ (by simpa [size_ofBits bs h2] using h)]

theorem get_error_iff {b : Bitmap} (hb : b.Wf) (i : Nat) :
    (∃ e, b.get i = .error e) ↔ b.size ≤ i := by
  obtain ⟨bs, rfl, -, h2⟩ := hb.exists
  rw [size_ofBits bs h2]
  by_cases hi : bs.length ≤ i <;> simp [get, Bitmap.ofBits, hi]

theorem abs_flip {b : Bitmap} (hb : b.Wf) : b.flip.abs = b.abs.flip := by
  obtain ⟨bs, rfl, -, h2⟩ := hb.exists
  rw [flip_ofBits, abs_ofBits _ (by simpa using h2), abs_ofBits _ h2]
  simp [IdxSet.flip, memSet_map_not]

theorem flip_flip {b : Bitmap} (hb : b.Wf) : b.flip.flip = b := by
  obtain ⟨bs, rfl, -, -⟩ := hb.exists
  simp [flip_ofBits, Function.comp_def]

theorem abs_union {b c : Bitmap} (hb : b.Wf) (hc : c.Wf) :
    (b.union c).2.abs = b.abs.union c.abs := by
  obtain ⟨bs, rfl, -, h2⟩ := hb.exists
  obtain ⟨cs, rfl, -, h3⟩ := hc.exists
  by_cases hl : bs.length = cs.length
  · rw [union_ofBits _ _ hl h2, abs_ofBits _ (by simpa [hl] using h3), abs_ofBits _ h2,
      abs_ofBits _ h3]
    simp [IdxSet.union, hl, memSet_zipWith_or _ _ hl]
  · rw [union_of_ne _ _ (by simpa [h2, h3] using hl), abs_ofBits _ h2, abs_ofBits _ h3]
    simp [IdxSet.union, hl]

theorem union_ok_iff (b c : Bitmap) : (b.union c).1 = .ok () ↔ c.size = b.size := by
  by_cases h : b.size = c.size
  · simp [union, h]
  · simp [union_of_ne _ _ h, Ne.symm h]

theorem abs_clear {b : Bitmap} (hb : b.Wf) : b.clear.abs = b.abs.clear := by
  obtain ⟨bs, rfl, -, h2⟩ := hb.exists
  rw [clear_ofBits, abs_ofBits _ (by simpa using h2), abs_ofBits _ h2]
  simp [IdxSet.clear]

theorem count_eq_card {b : Bitmap} (hb : b.Wf) : b.count = b.abs.elems.card := by
  obtain ⟨bs, rfl, -, h2⟩ := hb.exists
  rw [count_ofBits _ h2, abs_ofBits _ h2, card_memSet]

theorem count_le_size {b : Bitmap} (hb : b.Wf) : b.count ≤ b.size := by
  obtain ⟨bs, rfl, -, h2⟩ := hb.exists
  rw [count_ofBits _ h2, size_ofBits _ h2]
  exact List.count_le_length true bs

/-! ## The iterator -/

theorem size_lt (b : Bitmap) : b.size < 256 := Nat.mod_lt _ (by decide)

/-- After `k` calls of `next`, the cursor is at `min k size`. -/
theorem iterate_next_iter (b : Bitmap) (k : Nat) :
    (fun it : BitmapIter => it.next.2)^[k] b.iter = ⟨b, min k b.size⟩ := by
  induction k with
  | zero => simp [Bitmap.iter]
  | succ k ih =>
    have hs := size_lt b
    rw [Function.iterate_succ_apply', ih]
    by_cases hk : k < b.size
    · simp [BitmapIter.next, Nat.min_eq_left hk.le, Nat.mod_eq_of_lt (by omega : k < 256), hk]
      omega
    · simp [BitmapIter.next, Nat.min_eq_right (Nat.not_lt.mp hk), Nat.mod_eq_of_lt hs]
      omega

/-- The `k`-th call of `next` yields `(k, flag)` while `k < size`, and `None` from
then on. -/
theorem next_iterate (b : Bitmap) (k : Nat) :
    ((fun it : BitmapIter => it.next.2)^[k] b.iter).next.1 =
      if k < b.size then some (k, b.bitset.contains k) else none := by
  have hs := size_lt b
  rw [iterate_next_iter]
  by_cases hk : k < b.size
  · simp [BitmapIter.next, Nat.min_eq_left hk.le, Nat.mod_eq_of_lt (by omega : k < 256), hk]
  · simp [BitmapIter.next, Nat.min_eq_right (Nat.not_lt.mp hk), Nat.mod_eq_of_lt hs, hk]

theorem collect_from (b : Bitmap) : ∀ (fuel j : Nat), j ≤ b.size → b.size - j ≤ fuel →
    BitmapIter.collect fuel ⟨b, j⟩ =
      (List.range' j (b.size - j)).map fun i => (i, b.bitset.contains i)
  | 0, j, _, hf => by simp [BitmapIter.collect, show b.size - j = 0 by omega]
  | fuel + 1, j, hj, hf => by
    have hs := size_lt b
    by_cases hjs : j < b.size
    · rw [show b.size - j = (b.size - (j + 1)) + 1 by omega, List.range'_succ]
      simp [BitmapIter.collect, BitmapIter.next, Nat.mod_eq_of_lt (by omega : j < 256), hjs,
        collect_from b fuel (j + 1) (by omega) (by omega)]
    · simp [BitmapIter.collect, BitmapIter.next, Nat.mod_eq_of_lt (by omega : j < 256), hjs,
        show b.size - j = 0 by omega]

/-- `collect` on `b.iter()`: all pairs, in increasing index order. -/
theorem pairs_eq (b : Bitmap) :
    b.pairs = (List.range b.size).map fun i => (i, b.bitset.contains i) := by
  rw [pairs, iter, collect_from b 256 0 (Nat.zero_le _) (by have := size_lt b; omega),
    List.range_eq_range', Nat.sub_zero]

/-! ## The refinement theorem -/

/-- What a reachable bitmap `b` satisfies, with `S = b.abs.elems`. -/
structure RefinesIdxSet (b : Bitmap) : Prop where
  /-- No bit at or beyond `size` is set in the representation. -/
  padding_clear : ∀ i, b.size ≤ i → b.bitset.contains i = false
  /-- `==` is equality of `abs`, against every reachable bitmap. -/
  eq_iff : ∀ c, c.Reachable → (b = c ↔ b.abs = c.abs)
  size_stable : ∀ i f c, c.Reachable → (b.set i f).2.size = b.size ∧ b.flip.size = b.size ∧
    (b.union c).2.size = b.size ∧ b.clear.size = b.size
  set : ∀ i f, (b.set i f).2.abs = b.abs.set i f ∧ ((b.set i f).1 = .ok () ↔ i < b.size) ∧
    (b.size ≤ i → (b.set i f).2 = b)
  get_error : ∀ i, (∃ e, b.get i = .error e) ↔ b.size ≤ i
  count : b.count = b.abs.elems.card ∧ b.count ≤ b.size
  flip : b.flip.abs = b.abs.flip ∧ b.flip.count = b.size - b.count ∧ b.flip.flip = b
  union : ∀ c, c.Reachable → (b.union c).2.abs = b.abs.union c.abs
  union_error : ∀ c, ((b.union c).1 = .ok () ↔ c.size = b.size) ∧
    (c.size ≠ b.size → (b.union c).2 = b)
  clear : b.clear.abs = b.abs.clear
  /-- The `k`-th `next` yields `(k, k ∈ S)` for `k < size`, then `None`. -/
  iter : ∀ k, ((fun it : BitmapIter => it.next.2)^[k] b.iter).next.1 =
    if k < b.size then some (k, decide (k ∈ b.abs.elems)) else none

/-- Every bitmap reachable from `new(n, ones)` (`1 ≤ n ≤ 255`) keeps its padding
clear, and each operation is the corresponding operation on its index set. -/
theorem refines_idxSet {b : Bitmap} (hb : b.Reachable) : b.RefinesIdxSet := by
  have w := hb.wf
  have hsz : ∀ {c : Bitmap}, c.abs.size = c.size := rfl
  refine ⟨fun _ => contains_of_size_le w, fun c hc => eq_iff_abs_eq w hc.wf,
    fun i f c hc => ⟨?_, ?_, ?_, ?_⟩,
    fun i f => ⟨abs_set w i f, set_ok_iff w i f, set_of_size_le w f⟩, get_error_iff w,
    ⟨count_eq_card w, count_le_size w⟩, ⟨abs_flip w, ?_, flip_flip w⟩,
    fun c hc => abs_union w hc.wf, fun c => ⟨union_ok_iff b c, fun h => ?_⟩, abs_clear w,
    fun k => ?_⟩
  · rw [← hsz, abs_set w, IdxSet.size_set, hsz]
  · rw [← hsz, abs_flip w, IdxSet.size_flip, hsz]
  · rw [← hsz, abs_union w hc.wf, IdxSet.size_union, hsz]
  · rw [← hsz, abs_clear w, IdxSet.size_clear, hsz]
  · rw [count_eq_card hb.flip.wf, abs_flip w, IdxSet.card_flip, count_eq_card w]; rfl
  · rw [union_of_ne _ _ (Ne.symm h)]
  · rw [next_iterate]
    split
    · rw [contains_eq_mem_abs w ‹_›]
    · rfl

/-- `refines_idxSet` at `new(5, false)`. -/
theorem refines_idxSet_new :
    (Bitmap.ofBits (List.replicate 5 false)).Reachable ∧
      (Bitmap.ofBits (List.replicate 5 false)).RefinesIdxSet :=
  have h : (Bitmap.ofBits (List.replicate 5 false)).Reachable :=
    @Reachable.new 5 false _ (by decide) (by decide) (new_eq 5 false (by decide))
  ⟨h, refines_idxSet h⟩

end Bitmap

end Summerset.Utils
