import QuantLinear.Proofs.Loading

/-!
The books on scales that were made up.

A scale that no one loaded is counted by its layer and by the machine, and reported to the observer.
The two counts always agree. The reports follow account by account, in the order in which the layers
were materialized: one for each scale that was made up, except that the reports on a layer end where
the observer fails on one of them.

One call opens one account at most (`Booked`), and all accounts of a run make up its ledger
(`Machine.Accounted`).
-/

namespace QuantLinear

open QuantLinear.Action

/-- Whether a call leaves the observer in place and its record alone. -/
def Command.Observed : Command → Prop
  | .observe _ | .takeReports => False
  | _ => True

/-- The scales that were made up for a layer, and what the observer heard of them. -/
structure Account where
  id : LayerId
  made : List ScaleRole
  heard : List Placeholder

/-- The reports that an observer took, account by account. -/
def heardOf (ledger : List Account) : List Placeholder := ledger.flatMap (·.heard)

private theorem heardOf_append (first second : List Account) :
    heardOf (first ++ second) = heardOf first ++ heardOf second := List.flatMap_append

/-- An account that is right for a layer, of an observer that had taken the reports `seen` before. -/
structure Account.Settles (observer : Observer) (seen : List Placeholder) (account : Account)
    (layer : Layer) : Prop where
  materialized : layer.materialized = true
  /-- Required scales alone are made up, and each at most once. -/
  required : account.made.Sublist layer.required
  counted : layer.placeholders = account.made.length
  /-- Each is reported, unless the observer failed on one that came before. -/
  reported : account.heard = account.made.map layer.placeholder ∨
    ∃ earlier refused later,
      account.made.map layer.placeholder = earlier ++ refused :: later ∧
      account.heard = earlier ++ [refused] ∧ observer.FailsAfter seen earlier refused

/-- The sum of what layers count. -/
def counted (layers : Array Layer) : Nat := (layers.toList.map (·.placeholders)).sum

/-- Putting a layer in the place of another changes the sum by what the two count. -/
private theorem counted_set {layers : Array Layer} {id : LayerId} {layer : Layer}
    (there : layers[id]? = some layer) (later : Layer) :
    counted (layers.setIfInBounds id later) + layer.placeholders =
      counted layers + later.placeholders := by
  obtain ⟨layers⟩ := layers
  simp only [List.getElem?_toArray] at there
  simp only [counted, List.setIfInBounds_toArray]
  induction layers generalizing id with
  | nil => cases there
  | cons first rest ih =>
    cases id with
    | zero =>
      cases there
      simp only [List.set_cons_zero, List.map_cons, List.sum_cons]
      omega
    | succ id =>
      have below : rest[id]? = some layer := there
      have others := ih below
      simp only [List.set_cons_succ, List.map_cons, List.sum_cons]
      omega

private theorem counted_push (layers : Array Layer) (layer : Layer) :
    counted (layers.push layer) = counted layers + layer.placeholders := by
  simp [counted]

/-- What an observer hears of the reports on a layer: all of them, or those up to the first one that
it fails on. -/
def Machine.Hears (machine : Machine) (layer : Layer) (called : List Placeholder) : Prop :=
  called = layer.madeUp ∨ ∃ earlier refused later, layer.madeUp = earlier ++ refused :: later ∧
    called = earlier ++ [refused] ∧ machine.observer.FailsAfter machine.reports earlier refused

/-- A layer stays where it is when it is materialized, and with it what is reported on its scales. -/
theorem Commit.placeholder {before after : Machine} {id : LayerId} {layer ready : Layer}
    {called : List Placeholder} (commit : Commit before id layer ready called after) :
    ready.placeholder = layer.placeholder := by
  have device : ready.weight.device = layer.weight.device := by
    by_cases pending : layer.ToPack
    · exact (commit.packed pending).2.device
    · rw [(commit.weight pending).1]
  funext role
  rw [Layer.placeholder, Layer.scaleShape, Layer.variant, commit.fixed.1, device]
  rfl

/-- Nothing was made up between two machines, and the observer heard of nothing. -/
structure Machine.Untold (before after : Machine) : Prop where
  observer : after.observer = before.observer
  reports : after.reports = before.reports
  placeholders : after.placeholders = before.placeholders

private theorem Machine.Follows.untold {changed : List Nat} {before after : Machine}
    (followed : before.Follows changed after) : before.Untold after :=
  ⟨followed.observer, followed.reports, followed.placeholders⟩

/-- What one call does to the books: it opens an account for one layer at most, and then for one that
was not materialized. -/
structure Booked (before : Machine) (entry : Option Account) (after : Machine) : Prop where
  observer : after.observer = before.observer
  reports : after.reports = before.reports ++ heardOf entry.toList
  count : after.placeholders + counted before.layers = before.placeholders + counted after.layers
  /-- A materialized layer stays as it is. -/
  fixed : ∀ (id : LayerId) (layer : Layer), before.layers[id]? = some layer →
    layer.materialized = true → after.layers[id]? = some layer
  opened : ∀ account ∈ entry, ∃ layer, before.layers[account.id]? = some layer ∧
    layer.materialized = false
  settled : ∀ account ∈ entry, ∃ layer, after.layers[account.id]? = some layer ∧
    account.Settles before.observer before.reports layer
  /-- A layer for which no account is opened is new, or as it was with respect to the books. -/
  others : ∀ (id : LayerId) (later : Layer), after.layers[id]? = some later →
    (∀ account ∈ entry, account.id ≠ id) →
    later.materialized = false ∧ later.placeholders = 0 ∨
      ∃ layer, before.layers[id]? = some layer ∧ later.materialized = layer.materialized ∧
        later.placeholders = layer.placeholders

namespace Booked

variable {before middle after : Machine} {entry : Option Account}

/-- Work that opens no account and puts the layers `layers` in the place of those before. -/
private theorem of_layers {layers : Array Layer} (untold : before.Untold middle)
    (count : counted layers = counted before.layers)
    (fixed : ∀ (id : LayerId) (layer : Layer), before.layers[id]? = some layer →
      layer.materialized = true → layers[id]? = some layer)
    (others : ∀ (id : LayerId) (later : Layer), layers[id]? = some later →
      later.materialized = false ∧ later.placeholders = 0 ∨
        ∃ layer, before.layers[id]? = some layer ∧ later.materialized = layer.materialized ∧
          later.placeholders = layer.placeholders) :
    Booked before none { middle with layers := layers } where
  observer := untold.observer
  reports := by rw [untold.reports]; exact (List.append_nil _).symm
  count := by rw [untold.placeholders, count]
  fixed := fixed
  opened := by simp
  settled := by simp
  others id later found _ := others id later found

private theorem of_untold (untold : before.Untold after) (same : after.layers = before.layers) :
    Booked before none after := by
  refine of_layers untold (by rw [same]) (fun id layer => ?_) fun id later => ?_
  · rw [same]
    exact fun there _ => there
  · rw [same]
    exact fun there => .inr ⟨later, there, rfl, rfl⟩

private theorem of_follows (followed : before.Follows [] after) : Booked before none after :=
  of_untold followed.untold followed.layers

private theorem of_attached {id : LayerId} {parameters : List Parameter}
    (attached : Attached before id parameters after) : Booked before none after := by
  obtain ⟨layer, there, unready, staged, followed, rfl⟩ := attached
  obtain ⟨inside, -⟩ := Array.getElem?_eq_some_iff.mp there
  have done := (layer.attachAll_fixed parameters).2.2
  have count := layer.attachAll_placeholders parameters
  have sum := counted_set there (parameters.foldl Layer.attach layer)
  rw [count] at sum
  have now (other : LayerId) :
      (before.layers.setIfInBounds id (parameters.foldl Layer.attach layer))[other]? =
        if id = other then some (parameters.foldl Layer.attach layer) else before.layers[other]? := by
    rw [Array.getElem?_setIfInBounds, if_pos inside]
  rw [Machine.withLayer, followed.layers]
  refine of_layers followed.untold (Nat.add_right_cancel sum) (fun other known found ready => ?_)
    fun other later found => ?_
  · rw [now]
    split
    · next same =>
      subst same
      cases there.symm.trans found
      -- a materialized layer takes no parameters
      rw [unready ready]
      rfl
    · exact found
  · rw [now] at found
    split at found
    · next same =>
      subst same
      cases found
      exact .inr ⟨layer, there, done, count⟩
    · exact .inr ⟨later, found, rfl, rfl⟩

private theorem of_added {spec : LayerSpec} {device : Device} (added : Added before spec device after) :
    Booked before none after := by
  obtain ⟨weight, bias, staged, -, followed, rfl⟩ := added
  rw [followed.layers]
  refine of_layers followed.untold (counted_push _ _) (fun id layer found _ => ?_) fun id later found => ?_
  · obtain ⟨inside, -⟩ := Array.getElem?_eq_some_iff.mp found
    rw [Array.getElem?_push, if_neg (Nat.ne_of_lt inside), found]
  · rw [Array.getElem?_push] at found
    split at found
    · cases found
      exact .inl ⟨rfl, rfl⟩
    · exact .inr ⟨later, found, rfl, rfl⟩

/-- The account of a layer that was just materialized is right. -/
private theorem settles_of_commit {id : LayerId} {layer ready : Layer} {called : List Placeholder}
    (commit : Commit before id layer ready called after) (unmade : layer.placeholders = 0)
    (heard : before.Hears layer called) :
    Account.Settles before.observer before.reports
      ⟨id, layer.required.filter layer.lacks, called⟩ ready := by
  have required : ready.required = layer.required := by
    rw [Layer.required, Layer.variant, commit.fixed.1]
    rfl
  have reports : layer.madeUp = (layer.required.filter layer.lacks).map ready.placeholder := by
    rw [Layer.madeUp, commit.placeholder]
  refine ⟨commit.materialized, ?_, ?_, ?_⟩
  · rw [required]
    exact List.filter_sublist
  · rw [commit.layerCount, unmade, Nat.zero_add, Layer.madeUp, List.length_map]
  · rw [← reports]
    exact heard

/-- Materializing a layer opens its account. -/
private theorem of_committed {id : LayerId} {layer ready : Layer} {called : List Placeholder}
    (there : before.layers[id]? = some layer) (unready : layer.materialized = false)
    (unmade : layer.placeholders = 0) (committed : Committed before id layer ready called after)
    (heard : before.Hears layer called) :
    Booked before (some ⟨id, layer.required.filter layer.lacks, called⟩) after := by
  have commit := committed.commit
  have observer : after.observer = before.observer := by
    obtain ⟨prepared, followed, -, rfl⟩ := committed
    exact followed.observer
  obtain ⟨inside, -⟩ := Array.getElem?_eq_some_iff.mp there
  have now (other : LayerId) : after.layers[other]? =
      if id = other then some ready else before.layers[other]? := by
    rw [commit.layers, Array.getElem?_setIfInBounds, if_pos inside]
  have apart {other : LayerId} {known : Layer} (found : before.layers[other]? = some known)
      (done : known.materialized = true) : id ≠ other := by
    rintro rfl
    cases there.symm.trans found
    cases unready.symm.trans done
  refine
    { observer := observer
      reports := by simp [commit.reports, heardOf]
      count := ?_
      fixed := fun other known found done => by rw [now, if_neg (apart found done), found]
      opened := ?_
      settled := ?_
      others := fun other later found none => ?_ }
  · have sum := counted_set there ready
    rw [← commit.layers, commit.layerCount] at sum
    rw [commit.count]
    omega
  · rintro account ⟨⟩
    exact ⟨layer, there, unready⟩
  · rintro account ⟨⟩
    exact ⟨ready, by rw [now, if_pos rfl], settles_of_commit commit unmade heard⟩
  · rw [now, if_neg (none _ rfl)] at found
    exact .inr ⟨later, found, rfl, rfl⟩

/-- Work on tensors that comes after a call changes nothing of the books. -/
private theorem thenFollows (booked : Booked before entry middle) (followed : middle.Follows [] after) :
    Booked before entry after where
  observer := followed.observer.trans booked.observer
  reports := followed.reports.trans booked.reports
  count := by rw [followed.placeholders, followed.layers]; exact booked.count
  fixed := by rw [followed.layers]; exact booked.fixed
  opened := booked.opened
  settled := by rw [followed.layers]; exact booked.settled
  others := by rw [followed.layers]; exact booked.others

end Booked

section Calls

variable {machine : Machine} (listens : machine.observer.listens = true)
  (unmade : ∀ (id : LayerId) (layer : Layer), machine.layers[id]? = some layer →
    layer.materialized = false → layer.placeholders = 0)

include listens unmade

private theorem ends_ensureMaterialized_booked (id : LayerId) :
    (ensureMaterialized id).Ends machine (fun _ after => ∃ entry, Booked machine entry after)
      fun _ after => ∃ entry, Booked machine entry after := by
  cases there : machine.layers[id]? with
  | none =>
    simp only [ensureMaterialized, findLayer, ends_bind, ends_get, there, ends_throw]
    exact ⟨none, .of_follows (.refl _ _)⟩
  | some layer =>
    cases done : layer.materialized with
    | true =>
      simp only [Ends, ensureMaterialized_again there done]
      exact ⟨none, .of_follows (.refl _ _)⟩
    | false =>
      have none := unmade id layer there done
      refine (ends_ensureMaterialized there done).mono (fun _ after ended => ?_)
        fun _ after ended => ?_
      · obtain ⟨ready, committed, -⟩ := ended
        exact ⟨_, .of_committed there done none committed (.inl (if_pos listens))⟩
      · rcases ended with ⟨followed, -⟩ | ⟨-, ready, earlier, refused, later, split, committed, fails⟩
        · exact ⟨.none, .of_follows followed⟩
        · exact ⟨_, .of_committed there done none committed
            (.inr ⟨earlier, refused, later, split, rfl, fails⟩)⟩

private theorem ends_applyLayer_booked (id : LayerId) (activation : Handle) :
    (applyLayer id activation).Ends machine (fun _ after => ∃ entry, Booked machine entry after)
      fun _ after => ∃ entry, Booked machine entry after := by
  simp only [applyLayer, findLayer, ends_bind, ends_get]
  cases there : machine.layers[id]? with
  | none => exact ⟨none, .of_follows (.refl _ _)⟩
  | some layer =>
    simp only [ends_pure]
    refine (ends_checkKernels layer.variant layer.device machine).mono (fun _ after same => ?_)
      fun _ after failed => ⟨none, .of_follows (failed.1 ▸ .refl _ _)⟩
    subst same
    refine (ends_ensureMaterialized_booked listens unmade id).mono (fun _ middle booked => ?_)
      fun _ _ booked => booked
    obtain ⟨entry, booked⟩ := booked
    cases middle.layers[id]? with
    | none => exact ⟨entry, booked⟩
    | some ready =>
      simp only [ends_pure, ends_lift]
      refine ⟨fun x _ => ?_, fun _ _ => ⟨entry, booked⟩⟩
      -- what the product holds plays no part here
      exact (ends_product ready x [] .f32 middle).mono
        (fun _ _ made => ⟨entry, booked.thenFollows made.1⟩)
        fun _ _ failed => ⟨entry, booked.thenFollows failed.1⟩

private theorem Command.ends_run_booked (command : Command) (observed : command.Observed) :
    command.run.Ends machine (fun _ after => ∃ entry, Booked machine entry after)
      fun _ after => ∃ entry, Booked machine entry after := by
  cases command with
  | build spec device =>
    simp only [run, ends_bind, ends_pure]
    exact (ends_buildLayer_added spec device machine).mono
      (fun _ _ ended => ⟨none, .of_added ended.2⟩) fun _ _ followed => ⟨none, .of_follows followed⟩
  | load id name value =>
    refine (ends_loadParameter_attached id name value machine).mono (fun _ _ ended => ?_)
      fun _ _ followed => ⟨none, .of_follows followed⟩
    obtain ⟨parameter, attached⟩ := ended
    exact ⟨none, .of_attached attached⟩
  | loadAll id entries =>
    refine (ends_loadParameters_attached id entries machine).mono (fun _ _ ended => ?_)
      fun _ _ followed => ⟨none, .of_follows followed⟩
    obtain ⟨parameters, attached⟩ := ended
    exact ⟨none, .of_attached attached⟩
  | materialize id => exact ends_ensureMaterialized_booked listens unmade id
  | apply id activation =>
    simp only [run, ends_bind, ends_pure]
    exact ends_applyLayer_booked listens unmade id activation
  | registerRuntime type remove =>
    simp only [run, QuantLinear.registerRuntime, makeRuntime, ends_bind, ends_ite, ends_pure, ends_map,
      ends_get, ends_set, ends_require, ends_modify]
    have quiet {middle : Machine} (untold : machine.Untold middle)
        (same : middle.layers = machine.layers) : ∃ entry, Booked machine entry middle :=
      ⟨none, .of_untold untold same⟩
    exact ⟨fun _ => ⟨fun _ => quiet ⟨rfl, rfl, rfl⟩ rfl, fun _ => quiet ⟨rfl, rfl, rfl⟩ rfl⟩,
      fun _ => ⟨fun _ => quiet ⟨rfl, rfl, rfl⟩ rfl, fun _ => quiet ⟨rfl, rfl, rfl⟩ rfl⟩⟩
  | changeKernels change => exact ⟨none, .of_untold ⟨rfl, rfl, rfl⟩ rfl⟩
  | tensors change => exact ⟨none, .of_untold ⟨rfl, rfl, rfl⟩ rfl⟩
  | observe observer => exact observed.elim
  | takeReports => exact observed.elim

private theorem Machine.booked (command : Command) (observed : command.Observed) :
    ∃ entry, Booked machine entry (machine.step command) := by
  have ended := command.ends_run_booked listens unmade observed
  unfold Ends at ended
  unfold step
  split at ended
  · next ran => rwa [ran]
  · next ran => rwa [ran]

end Calls

/-- The books of a machine since it was another one that had no layers. -/
structure Machine.Accounted (start machine : Machine) (ledger : List Account) : Prop where
  observer : machine.observer = start.observer
  count : machine.placeholders = start.placeholders + counted machine.layers
  reports : machine.reports = start.reports ++ heardOf ledger
  /-- No layer has two accounts. -/
  distinct : (ledger.map (·.id)).Nodup
  /-- A layer without an account is open, and nothing was made up for it. -/
  missing : ∀ (id : LayerId) (layer : Layer), machine.layers[id]? = some layer →
    id ∉ ledger.map (·.id) → layer.materialized = false ∧ layer.placeholders = 0
  settled : ∀ earlier account later, ledger = earlier ++ account :: later →
    ∃ layer, machine.layers[account.id]? = some layer ∧
      account.Settles start.observer (start.reports ++ heardOf earlier) layer

namespace Machine.Accounted

variable {start machine after : Machine} {ledger : List Account}

/-- A layer with an account is materialized. -/
private theorem closed (accounted : Accounted start machine ledger) {id : LayerId}
    (member : id ∈ ledger.map (·.id)) :
    ∃ layer, machine.layers[id]? = some layer ∧ layer.materialized = true := by
  obtain ⟨account, known, rfl⟩ := List.mem_map.mp member
  obtain ⟨earlier, later, split⟩ := List.append_of_mem known
  obtain ⟨layer, found, settles⟩ := accounted.settled earlier account later split
  exact ⟨layer, found, settles.materialized⟩

/-- Nothing was made up for a layer that is open. -/
private theorem unmade (accounted : Accounted start machine ledger) (id : LayerId) (layer : Layer)
    (there : machine.layers[id]? = some layer) (unready : layer.materialized = false) :
    layer.placeholders = 0 := by
  by_cases member : id ∈ ledger.map (·.id)
  · obtain ⟨same, found, done⟩ := accounted.closed member
    cases there.symm.trans found
    cases unready.symm.trans done
  · exact (accounted.missing id layer there member).2

/-- A call opens an account for a layer that had none. -/
private theorem opened_new (accounted : Accounted start machine ledger) {account : Account}
    (booked : Booked machine (some account) after) : account.id ∉ ledger.map (·.id) := by
  intro member
  obtain ⟨layer, found, unready⟩ := booked.opened account rfl
  obtain ⟨same, again, done⟩ := accounted.closed member
  cases found.symm.trans again
  cases unready.symm.trans done

private theorem distinct_step (accounted : Accounted start machine ledger) {entry : Option Account}
    (booked : Booked machine entry after) : ((ledger ++ entry.toList).map (·.id)).Nodup := by
  cases entry with
  | none => simpa using accounted.distinct
  | some account =>
    rw [List.map_append]
    exact accounted.distinct.append (List.nodup_singleton _)
      (List.disjoint_singleton.mpr (accounted.opened_new booked))

private theorem missing_step (accounted : Accounted start machine ledger) {entry : Option Account}
    (booked : Booked machine entry after) (id : LayerId) (later : Layer)
    (found : after.layers[id]? = some later) (none : id ∉ (ledger ++ entry.toList).map (·.id)) :
    later.materialized = false ∧ later.placeholders = 0 := by
  rw [List.map_append, List.mem_append, not_or] at none
  have other : ∀ account ∈ entry, account.id ≠ id := fun account opened same =>
    none.2 (List.mem_map.mpr ⟨account, Option.mem_toList.mpr opened, same⟩)
  rcases booked.others id later found other with new | ⟨layer, before, done, count⟩
  · exact new
  · rw [done, count]
    exact accounted.missing id layer before none.1

/-- Accounts stay right, as their layers stay as they are, and a new one is right from the start. -/
private theorem settled_step (accounted : Accounted start machine ledger) {entry : Option Account}
    (booked : Booked machine entry after) (earlier : List Account) (account : Account)
    (later : List Account) (split : ledger ++ entry.toList = earlier ++ account :: later) :
    ∃ layer, after.layers[account.id]? = some layer ∧
      account.Settles start.observer (start.reports ++ heardOf earlier) layer := by
  have old {rest : List Account} (split : ledger = earlier ++ account :: rest) :
      ∃ layer, after.layers[account.id]? = some layer ∧
        account.Settles start.observer (start.reports ++ heardOf earlier) layer := by
    obtain ⟨layer, found, settles⟩ := accounted.settled earlier account rest split
    exact ⟨layer, booked.fixed _ layer found settles.materialized, settles⟩
  cases entry with
  | none => exact old (by simpa using split)
  | some newest =>
    -- the newest account stands last, after all that was heard before
    rcases List.eq_nil_or_concat later with rfl | ⟨middle, last, rfl⟩
    · obtain ⟨rfl, same⟩ := List.append_inj' split rfl
      cases same
      rw [← accounted.observer, ← accounted.reports]
      exact booked.settled account rfl
    · rw [List.concat_eq_append, ← List.cons_append, ← List.append_assoc] at split
      exact old (List.append_inj' split rfl).1

/-- A call carries the books on. -/
theorem step (accounted : Accounted start machine ledger) {entry : Option Account}
    (booked : Booked machine entry after) : Accounted start after (ledger ++ entry.toList) where
  observer := booked.observer.trans accounted.observer
  count := by
    have grown := booked.count
    have count := accounted.count
    omega
  reports := by rw [booked.reports, accounted.reports, heardOf_append, List.append_assoc]
  distinct := accounted.distinct_step booked
  missing := accounted.missing_step booked
  settled := accounted.settled_step booked

/-- A run carries the books on. -/
theorem carried (accounted : Accounted start machine ledger)
    (listens : start.observer.listens = true) (commands : List Command)
    (observed : ∀ command ∈ commands, command.Observed) :
    ∃ more, Accounted start (machine.after commands) (ledger ++ more) := by
  induction commands generalizing machine ledger with
  | nil => exact ⟨[], by rwa [List.append_nil]⟩
  | cons command rest ih =>
    obtain ⟨entry, booked⟩ := Machine.booked (by rw [accounted.observer, listens]) accounted.unmade
      command (observed command List.mem_cons_self)
    obtain ⟨more, later⟩ := ih (accounted.step booked)
      fun other member => observed other (List.mem_cons_of_mem _ member)
    exact ⟨entry.toList ++ more, by rwa [← List.append_assoc]⟩

end Machine.Accounted

/-- Scales that were made up are accounted for throughout a run: while an observer is in place, which
may fail on any report, the machine counts what its layers count together, and each layer that was
materialized has one account. The reports are those of the accounts in their order, and an account
has one for each scale that was made up for its layer, or ends with the report that the observer
failed on. -/
theorem placeholders_accounted {start : Machine} (unbuilt : start.layers = #[])
    (listens : start.observer.listens = true) (commands : List Command)
    (observed : ∀ command ∈ commands, command.Observed) :
    ∃ ledger, Machine.Accounted start (start.after commands) ledger := by
  have opening : Machine.Accounted start start [] :=
    { observer := rfl
      count := by rw [unbuilt]; rfl
      reports := (List.append_nil _).symm
      distinct := List.nodup_nil
      missing := fun id layer there => by simp [unbuilt] at there
      settled := by simp }
  exact opening.carried listens commands observed

/-- A machine without layers whose observer fails on every report. -/
def Machine.refused : Machine := { Machine.initial with observer := .failing }

/-- A layer with two scales is built, and no one loads them. -/
def Command.twoMissing : List Command :=
  [.build { inFeatures := 2, outFeatures := 1, staticActivation := true } .host, .materialize 0]

theorem placeholders_accounted_twoMissing :
    ∃ ledger, Machine.Accounted .refused (Machine.refused.after Command.twoMissing) ledger := by
  refine placeholders_accounted rfl rfl _ fun command member => ?_
  simp only [Command.twoMissing, List.mem_cons, List.not_mem_nil, or_false] at member
  rcases member with rfl | rfl <;> trivial

/-- An observer that fails on the report on the first scale of a layer never hears of the second. -/
theorem placeholders_unheard_twoMissing :
    (Machine.refused.after Command.twoMissing).placeholders = Machine.refused.placeholders + 2 ∧
      (Machine.refused.after Command.twoMissing).reports.length =
        Machine.refused.reports.length + 1 := by
  decide +kernel

end QuantLinear
