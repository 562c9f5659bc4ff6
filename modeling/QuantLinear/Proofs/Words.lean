import QuantLinear.Proofs.Footprint
import QuantLinear.Proofs.RowMajor

/-!
Reading and writing the words of dense views.

A dense view covers its storage from the first byte on, each element at its place. A word written
there is read back, and the words at all other indices stay (`load_store`). A kernel fills such a
view index by index: `Filled` says how far it has come.
-/

namespace QuantLinear

theorem ElementKind.size_pos (kind : ElementKind) : 0 < kind.size := by
  cases kind with
  | float kind => cases kind <;> decide
  | _ => decide

/-- Element sizes are powers of two. -/
theorem ElementKind.size_dvd (kind : ElementKind) : kind.size ∣ 2 ^ 64 := by
  cases kind with
  | float kind => cases kind <;> decide
  | _ => decide

theorem ElementKind.size_le (kind : ElementKind) : kind.size ≤ 8 := by
  cases kind with
  | float kind => cases kind <;> decide
  | _ => decide

theorem ElementKind.toNat_size (kind : ElementKind) : (UInt64.ofNat kind.size).toNat = kind.size := by
  have small := kind.size_le
  rw [UInt64.toNat_ofNat']
  exact Nat.mod_eq_of_lt (by omega)

theorem Shape.count_lt_of_bytes {shape : Shape} {kind : ElementKind}
    (bytes : shape.count * kind.size < 2 ^ 64) : shape.count < 2 ^ 64 :=
  Nat.lt_of_le_of_lt (Nat.le_mul_of_pos_right _ kind.size_pos) bytes

/-- A word that fits its bytes is read back from them. -/
theorem wordOfBytes_bytesOfWord (count word : Nat) :
    wordOfBytes (bytesOfWord count word) = word % 256 ^ count := by
  induction count generalizing word with
  | zero => simp [bytesOfWord, wordOfBytes, Nat.mod_one]
  | succ count ih =>
    have digit : (UInt8.ofNat word).toNat = word % 256 := by simp
    rw [bytesOfWord, wordOfBytes, ih, digit, Nat.pow_succ, Nat.mul_comm (256 ^ count) 256,
      Nat.mod_mul]

/-- An address is reckoned modulo the word. -/
theorem View.addressAt_eq (v : View) (elements : Int) :
    v.addressAt elements = ((v.offset.toNat + elements * v.kind.size) % 2 ^ 64).toNat := rfl

/-- Offsets that agree modulo the word lead to one address. -/
theorem View.addressAt_congr (v : View) {a b : Int} (same : a ≡ b [ZMOD 2 ^ 64]) :
    v.addressAt a = v.addressAt b := by
  have moved : (v.offset.toNat : Int) + a * v.kind.size ≡ v.offset.toNat + b * v.kind.size
      [ZMOD 2 ^ 64] := (same.mul_right _).add_left _
  rw [addressAt_eq, addressAt_eq, moved]

/-- The address of an element of a view without gaps, which may wrap. -/
theorem View.address_indexAt (v : View) (rank : v.strides.length = v.shape.length)
    (packed : v.isContiguous = true) {place : Nat} (below : place < v.shape.count) :
    v.address (v.shape.indexAt place) = (v.offset.toNat + place * v.kind.size) % 2 ^ 64 := by
  have offset := Shape.offset_eq_place rank packed (Shape.within_indexAt below)
  rw [Shape.placeOf_indexAt below] at offset
  rw [address, v.addressAt_congr offset, addressAt_eq]
  omega

/-- The bytes of a place lie below those of all elements. -/
theorem View.place_bytes_le {v : View} {place : Nat} (below : place < v.shape.count) :
    place * v.kind.size + v.kind.size ≤ v.shape.count * v.kind.size := by
  have step := Nat.mul_le_mul_right v.kind.size (Nat.succ_le_of_lt below)
  rwa [Nat.succ_mul] at step

namespace Memory

theorem wordOfBytes_lt (bytes : List UInt8) : wordOfBytes bytes < 256 ^ bytes.length := by
  induction bytes with
  | nil => decide
  | cons byte rest ih =>
    have low := byte.toNat_lt
    rw [wordOfBytes, List.length_cons, Nat.pow_succ]
    omega

@[simp] theorem length_readBytes (mem : Memory) (storage address count : Nat) :
    (mem.readBytes storage address count).length = count := by simp [readBytes]

theorem load_lt (mem : Memory) (v : View) (index : Index) :
    mem.load v index < 256 ^ v.kind.size := by
  have bound := wordOfBytes_lt (mem.readBytes v.storage (v.address index) v.kind.size)
  rwa [length_readBytes] at bound

/-- A range that lies in its storage is read back as it was written. -/
theorem readBytes_writeBytes (mem : Memory) (storage start : Nat) (bytes : List UInt8)
    (inside : start + bytes.length ≤ mem.size storage) :
    (mem.writeBytes storage start bytes).readBytes storage start bytes.length = bytes := by
  apply List.ext_getElem
  · simp
  · intro i _ bound
    have here : start + i < mem.size storage := by omega
    simp [readBytes, byte_writeBytes, here, bound]

/-- A write leaves the ranges apart from it alone. -/
theorem readBytes_writeBytes_apart (mem : Memory) (target start : Nat) (bytes : List UInt8)
    (storage address count : Nat)
    (apart : target ≠ storage ∨ address + count ≤ start ∨ start + bytes.length ≤ address) :
    (mem.writeBytes target start bytes).readBytes storage address count =
      mem.readBytes storage address count := by
  apply readBytes_congr
  intro i below
  rw [byte_writeBytes]
  split
  · next inside =>
    have beyond : bytes.length ≤ address + i - start := by
      rcases apart with other | before | behind
      · exact absurd inside.1 other
      · omega
      · omega
    rw [List.getD_eq_getElem?_getD, List.getElem?_eq_none beyond, Option.getD_none]
  · rfl

/-- The numbers of a view stay while its storage does. -/
theorem Evolves.number {changed : List Nat} {before after : Memory} (evolved : Evolves changed before after)
    {v : View} (there : before.Has v) (kept : v.storage ∉ changed) (kind : FloatKind) (index : Index) :
    after.number v kind index = before.number v kind index := by
  rw [Memory.number, evolved.load there.stored kept, Memory.number]

/-- A view whose elements lie in its storage, each in bytes of its own. -/
structure Separate (mem : Memory) (v : View) : Prop where
  stored : v.storage < mem.next
  room : ∀ index, v.shape.Within index → v.address index + v.kind.size ≤ mem.size v.storage
  apart : ∀ i j, v.shape.Within i → v.shape.Within j → i ≠ j →
    v.address i + v.kind.size ≤ v.address j ∨ v.address j + v.kind.size ≤ v.address i

namespace Separate

variable {mem : Memory} {v : View}

theorem later {changed : List Nat} {after : Memory} (separate : mem.Separate v)
    (evolved : Evolves changed mem after) : after.Separate v where
  stored := Nat.lt_of_lt_of_le separate.stored evolved.grows
  room index inside := by
    rw [evolved.size v.storage separate.stored]
    exact separate.room index inside
  apart := separate.apart

/-- The word written at an index is read back there, and all other words stay. -/
theorem load_store (separate : mem.Separate v) {i j : Index} (first : v.shape.Within i)
    (second : v.shape.Within j) {word : Nat} (fits : word < 256 ^ v.kind.size) :
    (mem.store v i word).load v j = if j = i then word else mem.load v j := by
  have length := length_bytesOfWord v.kind.size word
  rw [store, setWordAt, load, wordAt]
  split
  · next same =>
    have back := readBytes_writeBytes mem v.storage (v.address i) (bytesOfWord v.kind.size word)
      (by rw [length]; exact separate.room i first)
    rw [length] at back
    rw [same, back, wordOfBytes_bytesOfWord, Nat.mod_eq_of_lt fits]
  · next other =>
    rw [readBytes_writeBytes_apart, load, wordAt]
    right
    rw [length]
    exact separate.apart j i second first other

end Separate

/-- A view that covers its storage from the first byte on, in row-major order without gaps. -/
structure Dense (mem : Memory) (v : View) : Prop where
  strides : v.strides = v.shape.contiguousStrides
  offset : v.offset = 0
  fits : v.shape.count * v.kind.size < 2 ^ 64
  room : v.shape.count * v.kind.size ≤ mem.size v.storage
  stored : v.storage < mem.next

namespace Dense

variable {mem : Memory} {v : View}

theorem has (dense : mem.Dense v) : mem.Has v :=
  ⟨by rw [dense.strides, Shape.length_contiguousStrides], dense.stored⟩

theorem isContiguous (dense : mem.Dense v) : v.isContiguous = true := by
  rw [View.isContiguous, dense.strides, Shape.isContiguous_contiguousStrides]

theorem later {changed : List Nat} {after : Memory} (dense : mem.Dense v)
    (evolved : Evolves changed mem after) : after.Dense v where
  strides := dense.strides
  offset := dense.offset
  fits := dense.fits
  room := by rw [evolved.size v.storage dense.stored]; exact dense.room
  stored := Nat.lt_of_lt_of_le dense.stored evolved.grows

private theorem addressAt_place (dense : mem.Dense v) {place : Nat} (below : place < v.shape.count) :
    v.addressAt place = place * v.kind.size := by
  have inside := View.place_bytes_le below
  have fits := dense.fits
  have size := v.kind.size_pos
  have small : ((place * v.kind.size : Nat) : Int) % 2 ^ 64 = (place * v.kind.size : Nat) :=
    Int.emod_eq_of_lt (by omega) (by omega)
  rw [View.addressAt_eq, dense.offset, UInt64.toNat_zero, Nat.cast_zero, zero_add, ← Nat.cast_mul,
    small, Int.toNat_natCast]

theorem address_eq (dense : mem.Dense v) {index : Index} (inside : v.shape.Within index) :
    v.address index = v.shape.placeOf index * v.kind.size := by
  rw [View.address, dense.strides, v.addressAt_congr (Shape.offset_contiguousStrides inside),
    dense.addressAt_place (Shape.placeOf_lt inside)]

theorem separate (dense : mem.Dense v) : mem.Separate v where
  stored := dense.stored
  room index inside := by
    rw [dense.address_eq inside]
    exact Nat.le_trans (View.place_bytes_le (Shape.placeOf_lt inside)) dense.room
  apart i j first second other := by
    rw [dense.address_eq first, dense.address_eq second]
    have places : v.shape.placeOf i ≠ v.shape.placeOf j :=
      fun same => other (Shape.placeOf_inj first second same)
    -- two places differ by at least one whole word
    rcases Nat.lt_or_gt_of_ne places with before | behind
    · left
      have step := Nat.mul_le_mul_right v.kind.size (Nat.succ_le_of_lt before)
      rwa [Nat.succ_mul] at step
    · right
      have step := Nat.mul_le_mul_right v.kind.size (Nat.succ_le_of_lt behind)
      rwa [Nat.succ_mul] at step

end Dense

/-- How far a view has been filled with the words `word`: those at the indices `done` are in
place, and the others are as they were. -/
structure Filled (mem : Memory) (v : View) (word : Index → Nat) (done : Index → Prop)
    (mid : Memory) : Prop where
  written : ∀ index, v.shape.Within index → done index → mid.load v index = word index
  waiting : ∀ index, v.shape.Within index → ¬done index → mid.load v index = mem.load v index

namespace Filled

variable {mem mid : Memory} {v : View} {word : Index → Nat} {done : Index → Prop}

theorem start (mem : Memory) (v : View) (word : Index → Nat) :
    Filled mem v word (fun _ => False) mem :=
  ⟨fun _ _ none => none.elim, fun _ _ _ => rfl⟩

theorem congr {others : Index → Prop} (filled : Filled mem v word done mid)
    (same : ∀ index, v.shape.Within index → (others index ↔ done index)) :
    Filled mem v word others mid where
  written index inside member := filled.written index inside ((same index inside).mp member)
  waiting index inside missing :=
    filled.waiting index inside fun member => missing ((same index inside).mpr member)

/-- Writing one more word. -/
theorem store (filled : Filled mem v word done mid) (separate : mid.Separate v) {i : Index}
    (inside : v.shape.Within i) (fits : word i < 256 ^ v.kind.size) :
    Filled mem v word (fun index => done index ∨ index = i) (mid.store v i (word i)) where
  written j within member := by
    rw [separate.load_store inside within fits]
    split
    · next same => rw [same]
    · next other => exact filled.written j within (member.resolve_right other)
  waiting j within missing := by
    have apart := not_or.mp missing
    rw [separate.load_store inside within fits, if_neg apart.2]
    exact filled.waiting j within apart.1

/-- Writing to a view apart from it. -/
theorem apart (filled : Filled mem v word done mid) {other : View} (apart : other.Disjoint v)
    {i : Index} (inside : other.shape.Within i) (value : Nat) :
    Filled mem v word done (mid.store other i value) where
  written j within member := by
    rw [(rewrites_store mid inside value).load (by simpa using apart) within,
      filled.written j within member]
  waiting j within missing := by
    rw [(rewrites_store mid inside value).load (by simpa using apart) within,
      filled.waiting j within missing]

/-- A loop over indices that are each met once fills them, where each step writes its word: it may
still find the old word at the index that it is about to write. -/
theorem foldl (separate : mem.Separate v) (word : Index → Nat) (step : Memory → Index → Memory)
    (fits : ∀ index, word index < 256 ^ v.kind.size) {indices : List Index} (distinct : indices.Nodup)
    (inside : ∀ index ∈ indices, v.shape.Within index)
    (each : ∀ mid, Rewrites [v] mem mid → ∀ index ∈ indices,
      mid.load v index = mem.load v index → step mid index = mid.store v index (word index)) :
    Rewrites [v] mem (indices.foldl step mem) ∧
      Filled mem v word (· ∈ indices) (indices.foldl step mem) := by
  -- by induction on the indices still to come; `done` are those that were met
  have general : ∀ (rest : List Index) (mid : Memory) (done : Index → Prop), rest.Nodup →
      (∀ index ∈ rest, index ∈ indices ∧ ¬done index) → Rewrites [v] mem mid →
      Filled mem v word done mid → Rewrites [v] mem (rest.foldl step mid) ∧
        Filled mem v word (fun index => done index ∨ index ∈ rest) (rest.foldl step mid) := by
    intro rest
    induction rest with
    | nil =>
      intro mid done _ _ rewritten filled
      exact ⟨rewritten, filled.congr fun _ _ => by simp⟩
    | cons i rest ih =>
      intro mid done distinct later rewritten filled
      obtain ⟨member, new⟩ := later i List.mem_cons_self
      have within := inside i member
      obtain ⟨other, distinct⟩ := List.nodup_cons.mp distinct
      rw [List.foldl_cons, each mid rewritten i member (filled.waiting i within new)]
      have grown := ih (mid.store v i (word i)) (fun index => done index ∨ index = i) distinct
        (fun j there => ⟨(later j (List.mem_cons_of_mem _ there)).1, fun met => met.elim
          (later j (List.mem_cons_of_mem _ there)).2 fun same => other (same ▸ there)⟩)
        (rewritten.trans (rewrites_store _ within _))
        (filled.store (separate.later rewritten.evolves) within (fits i))
      exact ⟨grown.1, grown.2.congr fun j _ => by simp [List.mem_cons, or_assoc]⟩
  obtain ⟨rewritten, filled⟩ := general indices mem (fun _ => False) distinct
    (fun index member => ⟨member, id⟩) (.refl _ _) (.start ..)
  exact ⟨rewritten, filled.congr fun _ _ => by simp⟩

end Filled

end Memory

/-- What a loop keeps: a statement that holds at the start and is carried from each position to
the next holds at the end. -/
theorem forRange_induction {σ : Type} (P : Nat → σ → Prop) {lo hi : Nat} (ordered : lo ≤ hi)
    (start : σ) (step : σ → Nat → σ) (initial : P lo start)
    (carried : ∀ i state, lo ≤ i → i < hi → P i state → P (i + 1) (step state i)) :
    P hi (forRange lo hi start step) := by
  have length : lo + (hi - lo) = hi := by omega
  -- by induction on the number of positions left, for every first one
  have general : ∀ n lo state, lo + n = hi → P lo state → (∀ i state, lo ≤ i → i < hi → P i state →
      P (i + 1) (step state i)) → P hi ((List.range' lo n).foldl step state) := by
    intro n
    induction n with
    | zero => intro lo state last here _; simpa [← last] using here
    | succ n ih =>
      intro lo state last here carry
      rw [List.range'_succ, List.foldl_cons]
      exact ih (lo + 1) _ (by omega) (carry lo state (Nat.le_refl _) (by omega) here)
        fun i state above below => carry i state (by omega) below
  exact general (hi - lo) lo start length initial carried

/-- The last step of a loop. -/
theorem forRange_succ {σ : Type} (hi : Nat) (start : σ) (step : σ → Nat → σ) :
    forRange 0 (hi + 1) start step = step (forRange 0 hi start step) hi := by
  simp [forRange, List.range'_concat]

/-- An invariant of the steps of a loop is one of the loop. -/
private theorem forRange_invariant {σ : Type} (P : σ → Prop) {lo hi : Nat} {start : σ}
    {step : σ → Nat → σ} (initial : P start) (kept : ∀ i state, P state → P (step state i)) :
    P (forRange lo hi start step) := by
  rw [forRange]
  generalize List.range' lo (hi - lo) = positions
  induction positions generalizing start with
  | nil => exact initial
  | cons i rest ih => exact ih (kept i start initial)

/-- A loop whose steps do nothing does nothing. -/
theorem forRange_idle {σ : Type} {lo hi : Nat} {start : σ} {step : σ → Nat → σ}
    (idle : ∀ i, step start i = start) : forRange lo hi start step = start :=
  forRange_invariant (· = start) rfl fun i state same => by rw [same, idle]

end QuantLinear
