import Mathlib.Data.List.Basic
import Mathlib.Data.List.Dedup

/-!
# `Bitmap` over the `fixedbitset` storage (`utils/bitmap.rs`)

`Bitmap` is a newtype over `fixedbitset::FixedBitSet`. The crate keeps a
length in bits and a vector of whole blocks, and `==` compares both, so the
padding bits of the last block take part in equality. `FixedBitSet` is
modelled with its blocks flattened into one `List Bool`, block after block,
so that the padding stays visible. Only the operations `Bitmap` calls are
modelled, as the crate defines them for the full range `..`: `set_range` and
`toggle_range` touch `[0, length)` only, `count_ones` counts only there,
`union_with` ORs whole blocks, `clear` zeroes every block.

`u8` and `usize` values are `Nat`. The casts to `u8` (`size`, `count` and the
iterator's `self.idx as u8`) are `% 256`. A panic is `none`. A `&mut self`
method that returns a `Result` returns the result and the bitmap after the
call, so that "an error leaves the bitmap unchanged" is a statement.

`FixedBitSet.ofBits bs` is the set whose bits in `[0, length)` are `bs` and
whose padding is clear. Every operation maps such a set to another one
(`withCapacity_eq`, `set_ofBits`, `toggleRangeAll_ofBits`, `unionWith_ofBits`,
`clear_ofBits`); the refinement in `Summerset.Utils.BitmapSet` is built on
these lemmas.
-/

namespace Summerset.Utils

/-- Bits per storage block (`u32` blocks, the unit the `GetSize` estimate of
`bitmap.rs` rounds to). -/
def blockBits : Nat := 32

/-- Blocks `FixedBitSet::with_capacity(bits)` allocates: `bits / BITS`, plus one
for a remainder. -/
def blocksFor (bits : Nat) : Nat := bits / blockBits + if bits % blockBits > 0 then 1 else 0

/-- Bits held by the blocks of a set of `bits` bits. -/
def storedBits (bits : Nat) : Nat := blocksFor bits * blockBits

theorem le_storedBits (n : Nat) : n ≤ storedBits n := by
  unfold storedBits blocksFor blockBits; split <;> omega

/-- `fixedbitset::FixedBitSet`: `length` bits stored in whole blocks; `data`
holds the blocks' bits in order. -/
structure FixedBitSet where
  data : List Bool
  length : Nat
  deriving DecidableEq, Repr

namespace FixedBitSet

/-- `FixedBitSet::with_capacity`: every block zero. -/
def withCapacity (bits : Nat) : FixedBitSet := ⟨List.replicate (storedBits bits) false, bits⟩

def len (s : FixedBitSet) : Nat := s.length

/-- `contains`, also what `Index` (`s[bit]`) returns: the stored bit, `false`
past the blocks. -/
def contains (s : FixedBitSet) (bit : Nat) : Bool := s.data.getD bit false

/-- `set`; the crate asserts `bit < length`, which `Bitmap::set` checks first. -/
def set (s : FixedBitSet) (bit : Nat) (enabled : Bool) : FixedBitSet :=
  { s with data := s.data.set bit enabled }

/-- `set_range(.., enabled)`. -/
def setRangeAll (s : FixedBitSet) (enabled : Bool) : FixedBitSet :=
  { s with data := (s.data.take s.length).map (fun _ => enabled) ++ s.data.drop s.length }

/-- `toggle_range(..)`. -/
def toggleRangeAll (s : FixedBitSet) : FixedBitSet :=
  { s with data := (s.data.take s.length).map not ++ s.data.drop s.length }

/-- `count_ones(..)`. -/
def countOnesAll (s : FixedBitSet) : Nat := (s.data.take s.length).count true

/-- `grow`: a longer length gets the blocks it needs (`data.resize(blocks, 0)`). -/
def grow (s : FixedBitSet) (bits : Nat) : FixedBitSet :=
  if bits > s.length then
    ⟨(s.data ++ List.replicate (storedBits bits - s.data.length) false).take (storedBits bits), bits⟩
  else s

/-- The block loop of `union_with`: `self.data.iter_mut().zip(other.data.iter())`
ORs in the other set's blocks and stops at the shorter vector. -/
def orBlocks : List Bool → List Bool → List Bool
  | x :: xs, y :: ys => (x || y) :: orBlocks xs ys
  | xs, [] => xs
  | [], _ :: _ => []

/-- `union_with`. -/
def unionWith (s other : FixedBitSet) : FixedBitSet :=
  let s := if other.len ≥ s.len then s.grow other.len else s
  { s with data := orBlocks s.data other.data }

/-- `clear`: every block zero. -/
def clear (s : FixedBitSet) : FixedBitSet := { s with data := s.data.map (fun _ => false) }

/-! ## Sets with clear padding -/

/-- The set of `bs.length` bits whose bits are `bs` and whose padding is clear. -/
def ofBits (bs : List Bool) : FixedBitSet :=
  ⟨bs ++ List.replicate (storedBits bs.length - bs.length) false, bs.length⟩

/-- The bits in `[0, length)`. -/
def bits (s : FixedBitSet) : List Bool := s.data.take s.length

@[simp] theorem length_ofBits (bs : List Bool) : (ofBits bs).length = bs.length := rfl

@[simp] theorem len_ofBits (bs : List Bool) : (ofBits bs).len = bs.length := rfl

@[simp] theorem bits_ofBits (bs : List Bool) : (ofBits bs).bits = bs := by
  simp [ofBits, bits]

theorem ofBits_inj {bs cs : List Bool} : ofBits bs = ofBits cs ↔ bs = cs :=
  ⟨fun h => by rw [← bits_ofBits bs, h, bits_ofBits], fun h => h ▸ rfl⟩

theorem withCapacity_eq (n : Nat) : withCapacity n = ofBits (List.replicate n false) := by
  simp only [withCapacity, ofBits, List.length_replicate, ← List.replicate_add]
  congr 2; have := le_storedBits n; omega

@[simp] theorem contains_ofBits (bs : List Bool) (i : Nat) (h : i < bs.length) :
    (ofBits bs).contains i = bs.getD i false := by
  simp [contains, ofBits, List.getD_eq_getElem?_getD, List.getElem?_append_left h]

theorem set_ofBits (bs : List Bool) (i : Nat) (e : Bool) (h : i < bs.length) :
    (ofBits bs).set i e = ofBits (bs.set i e) := by
  simp [set, ofBits, List.set_append, h]

theorem setRangeAll_ofBits (bs : List Bool) (e : Bool) :
    (ofBits bs).setRangeAll e = ofBits (bs.map fun _ => e) := by
  simp [setRangeAll, ofBits]

theorem toggleRangeAll_ofBits (bs : List Bool) :
    (ofBits bs).toggleRangeAll = ofBits (bs.map not) := by
  simp [toggleRangeAll, ofBits]

theorem countOnesAll_ofBits (bs : List Bool) : (ofBits bs).countOnesAll = bs.count true := by
  simp [countOnesAll, ofBits]

theorem clear_ofBits (bs : List Bool) : (ofBits bs).clear = ofBits (bs.map fun _ => false) := by
  simp [clear, ofBits, List.map_replicate]

theorem orBlocks_eq_zipWith : ∀ {xs ys : List Bool}, xs.length = ys.length →
    orBlocks xs ys = List.zipWith (· || ·) xs ys
  | [], [], _ => rfl
  | _ :: _, _ :: _, h => by
    simp only [orBlocks, List.zipWith_cons_cons, orBlocks_eq_zipWith (Nat.succ.inj h)]

theorem grow_of_le (s : FixedBitSet) (bits : Nat) (h : bits ≤ s.length) : s.grow bits = s := by
  simp [grow, Nat.not_lt.mpr h]

theorem unionWith_ofBits (bs cs : List Bool) (h : bs.length = cs.length) :
    (ofBits bs).unionWith (ofBits cs) = ofBits (List.zipWith (· || ·) bs cs) := by
  have hg : (if (ofBits cs).len ≥ (ofBits bs).len then (ofBits bs).grow (ofBits cs).len
      else ofBits bs) = ofBits bs := by
    split <;> simp [grow_of_le, h]
  have hz : (List.zipWith (· || ·) bs cs).length = cs.length := by simp [h]
  simp only [unionWith, hg]
  simp only [ofBits, h, hz, FixedBitSet.mk.injEq, and_true]
  rw [orBlocks_eq_zipWith (by simp [h]), List.zipWith_append _ _ _ _ _ h]
  simp [List.zipWith_replicate]

end FixedBitSet

/-! ## `Bitmap` -/

/-- `Bitmap`: compact bitmap for u8 ID -> bool mapping, a `FixedBitSet`.
mirrors src/src/utils/bitmap.rs:15-17 -/
structure Bitmap where
  bitset : FixedBitSet
  deriving DecidableEq, Repr

namespace Bitmap

/-- mirrors src/src/utils/bitmap.rs:30-41; `none` is the panic on size 0. -/
def new (size : Nat) (ones : Bool) : Option Bitmap :=
  if size = 0 then none
  else
    let bitset := FixedBitSet.withCapacity size
    some ⟨if ones then bitset.setRangeAll true else bitset⟩

/-- mirrors src/src/utils/bitmap.rs:45-54 -/
def set (b : Bitmap) (idx : Nat) (flag : Bool) : Except String Unit × Bitmap :=
  if idx ≥ b.bitset.len then (.error s!"index {idx} out of bound", b)
  else (.ok (), ⟨b.bitset.set idx flag⟩)

/-- mirrors src/src/utils/bitmap.rs:58-66 -/
def get (b : Bitmap) (idx : Nat) : Except String Bool :=
  if idx ≥ b.bitset.len then .error s!"index {idx} out of bound"
  else .ok (b.bitset.contains idx)

/-- mirrors src/src/utils/bitmap.rs:70-72 (`len() as u8`) -/
def size (b : Bitmap) : Nat := b.bitset.len % 256

/-- mirrors src/src/utils/bitmap.rs:76-78 (`count_ones(..) as u8`) -/
def count (b : Bitmap) : Nat := b.bitset.countOnesAll % 256

/-- mirrors src/src/utils/bitmap.rs:82-84 -/
def flip (b : Bitmap) : Bitmap := ⟨b.bitset.toggleRangeAll⟩

/-- mirrors src/src/utils/bitmap.rs:88-99 -/
def union (b other : Bitmap) : Except String Unit × Bitmap :=
  if b.size = other.size then (.ok (), ⟨b.bitset.unionWith other.bitset⟩)
  else
    let sa := b.size
    let sb := other.size
    (.error s!"unioning sizes mismatch: {sa} != {sb}", b)

/-- mirrors src/src/utils/bitmap.rs:103-105 -/
def clear (b : Bitmap) : Bitmap := ⟨b.bitset.clear⟩

theorem get_of_lt (b : Bitmap) (idx : Nat) (h : idx < b.bitset.len) :
    b.get idx = .ok (b.bitset.contains idx) := by
  simp [get, Nat.not_le.mpr h]

theorem get_eq_error {b : Bitmap} {idx : Nat} {err : String} (h : b.get idx = .error err) :
    b.bitset.len ≤ idx ∧ err = s!"index {idx} out of bound" := by
  unfold get at h
  split at h
  · cases h; exact ⟨‹_›, rfl⟩
  · cases h

end Bitmap

/-! ## Iteration -/

/-- `BitmapIter`: the bitmap and the `usize` cursor.
mirrors src/src/utils/bitmap.rs:214-219 -/
structure BitmapIter where
  map : Bitmap
  idx : Nat
  deriving DecidableEq, Repr

/-- mirrors src/src/utils/bitmap.rs:109-111 -/
def Bitmap.iter (b : Bitmap) : BitmapIter := ⟨b, 0⟩

/-- `next`. The flag is `get(id).unwrap()`, which is `Ok(contains id)` here
since `id < size ≤ len` (`Bitmap.get_of_lt`).
mirrors src/src/utils/bitmap.rs:224-232 -/
def BitmapIter.next (it : BitmapIter) : Option (Nat × Bool) × BitmapIter :=
  let id := it.idx % 256
  if id < it.map.size then (some (id, it.map.bitset.contains id), { it with idx := it.idx + 1 })
  else (none, it)

/-- What `collect` gathers: `next` until it returns `None`, at most `fuel` calls. -/
def BitmapIter.collect : Nat → BitmapIter → List (Nat × Bool)
  | 0, _ => []
  | fuel + 1, it =>
    match it.next with
    | (some x, it') => x :: collect fuel it'
    | (none, _) => []

/-- `b.iter()` run to its end. `next` returns `None` after `size ≤ 255` items,
so 256 calls reach it (`collect_iter` in `Summerset.Utils.BitmapSet`). -/
def Bitmap.pairs (b : Bitmap) : List (Nat × Bool) := b.iter.collect 256

/-- The indices whose flag is true, in iteration order. -/
def trueIdxs (ps : List (Nat × Bool)) : List Nat :=
  ps.filterMap fun p => if p.2 then some p.1 else none

/-! ## Conversions -/

/-- `HashSet<u8>`: its elements, each once, in the set's iteration order. -/
structure HashSetU8 where
  elems : List Nat
  nodup : elems.Nodup

/-- `collect()` into a `HashSet<u8>`: duplicates dropped. -/
def HashSetU8.ofList (l : List Nat) : HashSetU8 := ⟨l.dedup, List.nodup_dedup l⟩

namespace Bitmap

/-- `bitmap.set(idx, true).unwrap()`; `none` is the panic of `unwrap`. -/
def setTrueUnwrap (bitmap : Bitmap) (idx : Nat) : Option Bitmap :=
  match bitmap.set idx true with
  | (.ok (), bitmap) => some bitmap
  | (.error _, _) => none

/-- The body every `From<(u8, _)>` impl shares: `Self::new(size, false)`, then
`set(idx, true).unwrap()` for each index in the collection's order. -/
def fromOnes (size : Nat) (ones : List Nat) : Option Bitmap := do
  let bitmap ← Bitmap.new size false
  ones.foldlM setTrueUnwrap bitmap

/-- `From<(u8, Range<u8>)>`: the range `start..stop`.
mirrors src/src/utils/bitmap.rs:115-124 -/
def fromRange (size start stop : Nat) : Option Bitmap :=
  fromOnes size (List.range' start (stop - start))

/-- `From<(u8, Vec<u8>)>`. mirrors src/src/utils/bitmap.rs:127-136 -/
def fromVec (size : Nat) (ones : List Nat) : Option Bitmap := fromOnes size ones

/-- `From<(u8, &Vec<u8>)>`. mirrors src/src/utils/bitmap.rs:139-148 -/
def fromVecRef (size : Nat) (ones : List Nat) : Option Bitmap := fromOnes size ones

/-- `From<(u8, HashSet<u8>)>`. mirrors src/src/utils/bitmap.rs:151-160 -/
def fromHashSet (size : Nat) (ones : HashSetU8) : Option Bitmap := fromOnes size ones.elems

/-- `From<(u8, &HashSet<u8>)>`. mirrors src/src/utils/bitmap.rs:163-172 -/
def fromHashSetRef (size : Nat) (ones : HashSetU8) : Option Bitmap := fromOnes size ones.elems

/-- `From<Bitmap> for Vec<u8>` and `From<&Bitmap> for Vec<u8>`.
mirrors src/src/utils/bitmap.rs:175-192 -/
def toVec (b : Bitmap) : List Nat := trueIdxs b.pairs

/-- `From<Bitmap> for HashSet<u8>` and `From<&Bitmap> for HashSet<u8>`.
mirrors src/src/utils/bitmap.rs:195-212 -/
def toHashSet (b : Bitmap) : HashSetU8 := HashSetU8.ofList (trueIdxs b.pairs)

end Bitmap

end Summerset.Utils
