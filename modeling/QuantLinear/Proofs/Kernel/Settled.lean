import QuantLinear.Proofs.Work
import QuantLinear.Proofs.Kernel.Outcome
import QuantLinear.Proofs.Kernel.Quantize

/-!
Kernels that fail store nothing.

A kernel asks for the kind of an operand with each number that it loads or stores, in the middle of
its loops. The first position asks for all the kinds that the later ones ask for, and asks for them
before it stores. So each kernel settles to its function of the memory.
-/

namespace QuantLinear

theorem ElementKind.float_of_isFloating {kind : ElementKind} (floating : kind.isFloating = true) :
    ∃ float, kind = .float float := by
  cases kind with
  | float float => exact ⟨float, rfl⟩
  | _ => cases floating

namespace Work

section Numbers

variable {v : View} {kind : FloatKind} {fault : Fault}

private theorem number_ok (floating : v.kind.decodable = .ok kind) (index : Index) (mem : Memory) :
    number v index mem = .ok (mem.number v kind index) mem := by
  simp only [number, floating]
  rfl

private theorem number_error (other : v.kind.decodable = .error fault) (index : Index) (mem : Memory) :
    number v index mem = .error fault mem := by
  simp only [number, other]
  rfl

private theorem scaleNumber_ok (floating : v.kind.decodable = .ok kind) (i : Nat) (mem : Memory) :
    scaleNumber v i mem = .ok (mem.scaleNumber v kind i) mem := by
  simp only [scaleNumber, floating]
  rfl

private theorem scaleNumber_error (other : v.kind.decodable = .error fault) (i : Nat) (mem : Memory) :
    scaleNumber v i mem = .error fault mem := by
  simp only [scaleNumber, other]
  rfl

private theorem setNumber_ok (floating : v.kind.encodable = .ok kind) (index : Index) (x : Binary32)
    (mem : Memory) : setNumber v index x mem = .ok () (mem.setNumber v kind index x) := by
  simp only [setNumber, floating]
  rfl

private theorem setNumber_error (other : v.kind.encodable = .error fault) (index : Index) (x : Binary32)
    (mem : Memory) : setNumber v index x mem = .error fault mem := by
  simp only [setNumber, other]
  rfl

end Numbers

/-- A loop over the cells of a matrix without any. -/
private theorem eachCell_none {rows columns : UInt64} {step : Nat → Nat → Work Unit} {mem : Memory}
    (empty : rows = 0 ∨ columns = 0) : eachCell rows.toNat columns.toNat step mem = .ok () mem :=
  eachCell_idle (empty.imp (congrArg UInt64.toNat) (congrArg UInt64.toNat))

section Peak

variable {x : View} {row lo hi : Nat}

private theorem rowPeak_ok {kind : FloatKind} (floating : x.kind.decodable = .ok kind) (mem : Memory) :
    rowPeak x row lo hi mem = .ok (Kernel.rowPeak mem x kind row lo hi) mem := by
  rw [rowPeak, Kernel.rowPeak, forRange]
  generalize List.range' lo (hi - lo) = columns
  generalize (0 : Binary32) = peak
  induction columns generalizing peak with
  | nil => rfl
  | cons column rest ih =>
    rw [List.foldlM_cons, List.foldl_cons]
    have read : (do let value ← number x [row, column]; return peak.max value.abs : Work Binary32) mem =
        .ok (peak.max (mem.number x kind [row, column]).abs) mem :=
      (bind_ok (number_ok floating [row, column] mem)).trans rfl
    exact (bind_ok read).trans (ih _)

/-- A group with a column asks for the kind of its numbers. -/
private theorem rowPeak_error {fault : Fault} (other : x.kind.decodable = .error fault) (some : lo < hi)
    (mem : Memory) : rowPeak x row lo hi mem = .error fault mem := by
  obtain ⟨count, more⟩ : ∃ count, hi - lo = count + 1 := ⟨hi - lo - 1, by omega⟩
  rw [rowPeak, more, List.range'_succ, List.foldlM_cons]
  exact bind_error (bind_error (number_error other _ mem))

end Peak

/-- An axis that is cut into chunks at all has a first one, which is not empty. -/
private theorem chunkRange_first {extent size : UInt64} (some : ceilDiv extent size ≠ 0) :
    ∃ hi, chunkRange extent size (UInt64.ofNat 0) = (0, hi) ∧ 0 < hi := by
  have sized : size ≠ 0 := by
    rintro rfl
    exact some (by simp [ceilDiv])
  have positive : 0 < size.toNat :=
    Nat.pos_of_ne_zero fun zero => sized (UInt64.toNat_inj.mp zero)
  have wide : extent ≠ 0 := by
    rintro rfl
    apply some
    apply UInt64.toNat_inj.mp
    rw [ceilDiv, UInt64.toNat_div, UInt64.zero_add, UInt64.toNat_sub_of_le]
    · exact Nat.div_eq_of_lt (Nat.sub_lt positive Nat.one_pos)
    · exact UInt64.le_iff_toNat_le.mpr positive
  refine ⟨(min extent size).toNat, ?_, ?_⟩
  · simp [chunkRange]
  · rw [UInt64.toNat_min]
    exact Nat.lt_min.mpr ⟨Nat.pos_of_ne_zero fun zero => wide (UInt64.toNat_inj.mp zero), positive⟩

theorem settles_rearrange (target source : View) (mem : Memory) :
    (rearrange target source).Settles mem (.ok (Kernel.runRearrange target source mem)) :=
  eachIndex_ok (fun _ _ => rfl) _ mem

private theorem quantizeGroup_ok {target scales x : View} {size : UInt64} {kind scaleKind : FloatKind}
    (typed : target.kind = .float .f8) (scaled : scales.kind.encodable = .ok scaleKind)
    (floating : x.kind.decodable = .ok kind) (row group : Nat) (mem : Memory) :
    quantizeGroup target scales x size row group mem =
      .ok () (Kernel.quantizeGroup target scales x scaleKind kind size row mem group) := by
  have output : target.kind.encodable = .ok .f8 := by rw [typed]; rfl
  rw [quantizeGroup, Kernel.quantizeGroup]
  generalize chunkRange (x.extent 1) size (UInt64.ofNat group) = range
  obtain ⟨lo, hi⟩ := range
  -- the scale of the group is stored before any of its numbers is divided
  apply (bind_ok (rowPeak_ok floating mem)).trans
  apply (bind_ok (setNumber_ok scaled _ _ mem)).trans
  apply each_ok
  intro column mid
  exact (bind_ok (number_ok floating _ mid)).trans (setNumber_ok output _ _ mid)

/-- The first group asks for the kinds of the activations and of the scales before it stores. -/
private theorem quantizeGroup_error {target scales x : View} {size : UInt64} {fault : Fault}
    (some : ceilDiv (x.extent 1) size ≠ 0)
    (other : (do let _ ← x.kind.decodable; scales.kind.encodable : Except Fault FloatKind) =
      .error fault) (mem : Memory) :
    quantizeGroup target scales x size 0 0 mem = .error fault mem := by
  obtain ⟨hi, range, filled⟩ := chunkRange_first some
  rw [quantizeGroup, range]
  cases kinds : x.kind.decodable with
  | error missing =>
    rw [kinds] at other
    cases other
    exact bind_error (rowPeak_error kinds filled mem)
  | ok kind =>
    rw [kinds] at other
    -- the peak is only read, so the refused scale is the first thing to be stored
    exact (bind_ok (rowPeak_ok kinds mem)).trans (bind_error (setNumber_error other _ _ mem))

theorem settles_groupQuantize (target scales x : View) (size : UInt64) (mem : Memory) :
    (groupQuantize target scales x size).Settles mem
      (Kernel.runGroupQuantize target scales x size mem) := by
  rw [groupQuantize, Kernel.runGroupQuantize]
  apply settles_check
  intro _ typed
  apply settles_check
  intro _ _
  have typed : target.kind = .float .f8 := by simpa using require_eq_ok.mp typed
  split
  · next empty =>
    -- without rows or groups neither side does anything
    exact eachCell_none empty
  · next full =>
    obtain ⟨someRows, someGroups⟩ := not_or.mp full
    have rows := toNat_pos_of_ne_zero someRows
    have groups := toNat_pos_of_ne_zero someGroups
    have fails {fault : Fault}
        (first : quantizeGroup target scales x size 0 0 mem = .error fault mem) :=
      eachCell_error rows groups first
    cases kinds : x.kind.decodable with
    | error fault =>
      exact fails (quantizeGroup_error someGroups (by rw [kinds]; rfl) mem)
    | ok kind =>
      cases scaled : scales.kind.encodable with
      | error fault =>
        exact fails (quantizeGroup_error someGroups (by rw [kinds]; exact scaled) mem)
      | ok scaleKind => exact eachCell_ok groups (quantizeGroup_ok typed scaled kinds) _ mem

theorem settles_add (target left right : View) (mem : Memory) :
    (add target left right).Settles mem (Kernel.runAdd target left right mem) := by
  rw [add, Kernel.runAdd]
  split
  · next targetKind leftKind rightKind output first second =>
    have passed : (target.kind.isFloating && left.kind.isFloating && right.kind.isFloating) = true := by
      rw [output, first, second]
      rfl
    rw [passed]
    have stores : target.kind.encodable = .ok targetKind := by
      rw [output]
      rfl
    have loads : left.kind.decodable = .ok leftKind ∧ right.kind.decodable = .ok rightKind := by
      rw [first, second]
      exact ⟨rfl, rfl⟩
    apply eachIndex_ok
    intro index mid
    apply (bind_ok (number_ok loads.1 index mid)).trans
    exact (bind_ok (number_ok loads.2 index mid)).trans (setNumber_ok stores index _ mid)
  · next other =>
    have refused : (target.kind.isFloating && left.kind.isFloating && right.kind.isFloating) =
        false := by
      apply Bool.eq_false_iff.mpr
      intro floating
      simp only [Bool.and_eq_true] at floating
      obtain ⟨⟨output, first⟩, second⟩ := floating
      obtain ⟨targetKind, output⟩ := ElementKind.float_of_isFloating output
      obtain ⟨leftKind, first⟩ := ElementKind.float_of_isFloating first
      obtain ⟨rightKind, second⟩ := ElementKind.float_of_isFloating second
      exact other targetKind leftKind rightKind output first second
    rw [refused]
    rfl

theorem settles_staticQuantize (target x scale : View) (mem : Memory) :
    (staticQuantize target x scale).Settles mem (Kernel.runStaticQuantize target x scale mem) := by
  rw [staticQuantize, Kernel.runStaticQuantize]
  apply settles_check
  intro _ typed
  apply settles_check
  intro _ single
  have output : target.kind.encodable = .ok .f8 := by
    rw [show target.kind = .float .f8 by simpa using require_eq_ok.mp typed]
    rfl
  have single : scale.numel == 1 := require_eq_ok.mp single
  cases scaled : scale.kind.decodable with
  | error fault => exact bind_error (scaleNumber_error scaled 0 mem)
  | ok scaleKind =>
    have read : scaleNumber scale 0 mem =
        .ok (scaleKind.decode (mem.wordAt scale (scale.addressAt 0))) mem := by
      rw [scaleNumber_ok scaled, Memory.scaleNumber, if_pos single]
      rfl
    apply settles_read read
    apply settles_check
    intro _ _
    split
    · next empty => exact eachIndex_idle empty
    · next full =>
      cases floating : x.kind.decodable with
      | error fault =>
        exact eachIndex_error full fun index => bind_error (number_error floating index mem)
      | ok kind =>
        apply eachIndex_ok
        intro index mid
        exact (bind_ok (number_ok floating index mid)).trans (setNumber_ok output index _ mid)

theorem settles_repack (target weight : View) (mem : Memory) :
    (repack target weight).Settles mem (Kernel.runRepack target weight mem) := by
  rw [repack, Kernel.runRepack]
  apply settles_check
  intro _ _
  apply settles_check
  intro _ _
  apply settles_check
  intro _ _
  split
  · next empty => exact eachCell_none (.inr empty)
  · next full => exact eachCell_ok (toNat_pos_of_ne_zero full) (fun _ _ _ => rfl) _ mem

theorem settles_packedProduct (target left packed scale : View) (outFeatures inFeatures : UInt64)
    (mem : Memory) :
    (packedProduct target left packed scale outFeatures inFeatures).Settles mem
      (Kernel.runPackedProduct target left packed scale outFeatures inFeatures mem) := by
  rw [packedProduct, Kernel.runPackedProduct]
  refine settles_check fun _ _ => settles_check fun leftKind _ => settles_check fun _ _ =>
    settles_check fun _ _ => settles_check fun _ _ => settles_check fun _ _ => ?_
  -- without columns or depth there is no number of the weight to ask for
  split
  · next none =>
    have read : packedNumbers packed scale outFeatures inFeatures mem =
        .ok (.tabulate 0 0 fun _ _ => 0) mem := by
      rw [packedNumbers, if_pos none]
      rfl
    exact settles_read read (settles_get (eachCell_none (.inr none)))
  · next some =>
    cases scaled : scale.kind.decodable with
    | error fault =>
      apply bind_error
      rw [packedNumbers, if_neg some, scaled]
      rfl
    | ok scaleKind =>
      have read : packedNumbers packed scale outFeatures inFeatures mem =
          .ok (.tabulate outFeatures.toNat inFeatures.toNat fun row column =>
            Kernel.packedNumber mem packed outFeatures row column *
              mem.scaleNumber scale scaleKind row) mem := by
        rw [packedNumbers, if_neg some, scaled]
        rfl
      apply settles_read read
      apply settles_get
      split
      · next none => exact eachCell_none (.inl none)
      · next rows =>
        cases output : target.kind.encodable with
        | error fault =>
          exact eachCell_error (toNat_pos_of_ne_zero rows) (toNat_pos_of_ne_zero some)
            (setNumber_error output _ _ mem)
        | ok targetKind =>
          exact eachCell_ok (toNat_pos_of_ne_zero some) (fun _ _ _ => setNumber_ok output _ _ _) _ mem

theorem settles_blockScaledProduct (target left leftScale right rightScale : View)
    (blockRows blockColumns : UInt64) (mem : Memory) :
    (blockScaledProduct target left leftScale right rightScale blockRows blockColumns).Settles mem
      (Kernel.runBlockScaledProduct target left leftScale right rightScale blockRows blockColumns
        mem) := by
  rw [blockScaledProduct, Kernel.runBlockScaledProduct]
  refine settles_check fun _ _ => settles_check fun _ _ => settles_check fun _ _ =>
    settles_check fun _ _ => settles_get (settles_get (settles_get ?_))
  refine settles_check fun aScale _ => settles_get (settles_check fun bScale _ => ?_)
  split
  · next empty => exact eachCell_none empty
  · next full =>
    obtain ⟨someRows, someColumns⟩ := not_or.mp full
    -- all that the loop asks for is the kind of the target, with its first store
    cases output : target.kind.encodable with
    | error fault =>
      exact eachCell_error (toNat_pos_of_ne_zero someRows) (toNat_pos_of_ne_zero someColumns)
        (setNumber_error output _ _ mem)
    | ok targetKind =>
      exact eachCell_ok (toNat_pos_of_ne_zero someColumns) (fun _ _ _ => setNumber_ok output _ _ _)
        _ mem

section ScaledRow

variable {target leftScale rightScale : View} {columns row : Nat}
  {entry : Nat → Binary32 → Binary32 → Binary32} {leftKind : FloatKind}
  (rows : leftScale.kind.decodable = .ok leftKind)

include rows

private theorem scaledRow_ok {rightKind targetKind : FloatKind}
    (across : rightScale.kind.decodable = .ok rightKind)
    (output : target.kind.encodable = .ok targetKind) (mem : Memory) :
    scaledRow target leftScale rightScale columns row entry mem =
      .ok () (forRange 0 columns mem fun mid column =>
        mid.setNumber target targetKind [row, column]
          (entry column (mem.scaleNumber leftScale leftKind row)
            (mid.scaleNumber rightScale rightKind column))) := by
  apply (bind_ok (scaleNumber_ok rows row mem)).trans
  apply each_ok
  intro column mid
  exact (bind_ok (scaleNumber_ok across column mid)).trans (setNumber_ok output _ _ mid)

private theorem scaledRow_idle (mem : Memory) :
    scaledRow target leftScale rightScale 0 row entry mem = .ok () mem :=
  bind_ok (scaleNumber_ok rows row mem)

/-- The first column asks for the remaining kinds before it stores. -/
private theorem scaledRow_error {fault : Fault} (some : 0 < columns)
    (other : (do let _ ← rightScale.kind.decodable; target.kind.encodable :
      Except Fault FloatKind) = .error fault) (mem : Memory) :
    scaledRow target leftScale rightScale columns row entry mem = .error fault mem := by
  apply (bind_ok (scaleNumber_ok rows row mem)).trans
  apply each_error some
  cases across : rightScale.kind.decodable with
  | error missing =>
    rw [across] at other
    cases other
    exact bind_error (scaleNumber_error across 0 mem)
  | ok rightKind =>
    rw [across] at other
    exact (bind_ok (scaleNumber_ok across 0 mem)).trans (setNumber_error other _ _ mem)

end ScaledRow

theorem settles_scaledProduct (target left leftScale right rightScale : View) (mem : Memory) :
    (scaledProduct target left leftScale right rightScale).Settles mem
      (Kernel.runScaledProduct target left leftScale right rightScale mem) := by
  rw [scaledProduct, Kernel.runScaledProduct]
  refine settles_check fun _ _ => settles_check fun _ _ => settles_check fun _ _ =>
    settles_check fun _ _ => settles_get (settles_get ?_)
  generalize left.extent 0 = rows
  generalize right.extent 1 = columns
  by_cases none : rows = 0
  · rw [if_pos none, none]
    split <;> rfl
  have someRows := toNat_pos_of_ne_zero none
  rw [if_neg none]
  have asked : 0 < (if columns = 0 then min rows 1 else rows).toNat := by
    split
    · rw [UInt64.toNat_min]
      exact Nat.lt_min.mpr ⟨someRows, Nat.one_pos⟩
    · exact someRows
  cases rowKinds : leftScale.kind.decodable with
  | error fault => exact each_error asked (bind_error (scaleNumber_error rowKinds 0 mem))
  | ok leftKind =>
    by_cases empty : columns = 0
    · -- each row that is asked only reads its scale
      subst empty
      apply (each_ok (fun row mid => scaledRow_idle rowKinds mid) 0 _ mem).trans
      rw [forRange_idle fun _ => rfl]
    · have someColumns := toNat_pos_of_ne_zero empty
      simp only [if_neg empty]
      cases across : rightScale.kind.decodable with
      | error fault =>
        exact each_error someRows (scaledRow_error rowKinds someColumns (by rw [across]; rfl) mem)
      | ok rightKind =>
        cases output : target.kind.encodable with
        | error fault =>
          exact each_error someRows
            (scaledRow_error rowKinds someColumns (by rw [across]; exact output) mem)
        | ok targetKind =>
          exact each_ok (fun row mid => scaledRow_ok rowKinds across output mid) 0 rows.toNat mem

end Work

end QuantLinear
