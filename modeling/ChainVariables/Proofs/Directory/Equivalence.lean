import ChainVariables.Cache
import ChainVariables.Proofs.Directory.History
import ChainVariables.Proofs.SortedMap.Entries

/-! # Directories that resolve alike

Two directories may hold different records for a variable and still lead to the
same address at every height: the current address of a record does not matter
once its change has taken effect at height 0, nor does the height of a change that
leads nowhere else. No run of changes brings such a difference to light
(`ChainVariables.Directory.run_congr`), because a change looks at the record it
replaces only through the address that counts at the current height. The first
accepted move of a variable even removes the difference.
-/

namespace ChainVariables

namespace Directory

/-- Two directories contain the same names and resolve each of them alike at every height. -/
structure Equivalent (first second : Directory) : Prop where
  names : ∀ name, first.contains name = second.contains name
  places : ∀ name height, first.resolve name height = second.resolve name height

/-- What a change is answered. -/
inductive Reply where
  | installed
  | refused (error : DirectoryError)
  | removed (found : Bool)
  deriving DecidableEq

/-- The answer to a change. -/
def reply (directory : Directory) : Change → Reply
  | .install name address currentHeight changeOn =>
      match directory.install name address currentHeight changeOn with
      | .ok _ => .installed
      | .error error => .refused error
  | .remove name => .removed (directory.get? name).isSome

/-- The answers to changes made in order. -/
def replies : Directory → List Change → List Reply
  | _, [] => []
  | directory, change :: rest => directory.reply change :: (directory.apply change).replies rest

theorem resolve_eq (directory : Directory) (name : String) (height : Height) :
    directory.resolve name height =
      match (directory.get? name).map (·.addressAt height) with
      | some address => .ok address
      | none => .error (.notFound name) := by
  unfold resolve
  cases directory.get? name <;> rfl

/-- Directories are equivalent exactly if the records of each name lead to the same addresses. -/
theorem equivalent_iff {first second : Directory} : first.Equivalent second ↔
    ∀ name height, (first.get? name).map (·.addressAt height) =
      (second.get? name).map (·.addressAt height) := by
  refine ⟨?_, ?_⟩
  · intro equivalent name height
    have place := equivalent.places name height
    rw [resolve_eq, resolve_eq] at place
    cases found : (first.get? name).map (·.addressAt height) <;>
      cases found' : (second.get? name).map (·.addressAt height) <;>
      simp_all
  · intro alike
    refine ⟨?_, ?_⟩
    · intro name
      change (first.get? name).isSome = (second.get? name).isSome
      have present := congrArg Option.isSome (alike name (.mk 0))
      rwa [Option.isSome_map, Option.isSome_map] at present
    · intro name height
      rw [resolve_eq, resolve_eq, alike]

/-- A move depends on the record it replaces only through where that leads at the current height. -/
theorem schedule_congr {existing existing' : Option Relocation} {currentHeight : Height}
    (same : existing.map (·.addressAt currentHeight) = existing'.map (·.addressAt currentHeight))
    (address : Address) (changeOn : Height) :
    schedule existing address currentHeight changeOn =
      schedule existing' address currentHeight changeOn := by
  unfold schedule
  rw [same]

/-! ## One change -/

namespace Equivalent

variable {first second : Directory}

/-- An accepted move leaves equivalent directories with the same record. -/
theorem get?_apply_of_move (equivalent : first.Equivalent second) {change : Change} {name : String}
    {move : Move} (accepted : change.move? name = some move) :
    (first.apply change).get? name = (second.apply change).get? name := by
  rw [Directory.get?_apply_of_move accepted, Directory.get?_apply_of_move accepted,
    schedule_congr (equivalent_iff.mp equivalent name move.currentHeight)]

theorem apply (equivalent : first.Equivalent second) (change : Change) :
    (first.apply change).Equivalent (second.apply change) := by
  rw [equivalent_iff]
  intro name height
  by_cases removed : change = .remove name
  · subst removed
    have absent (directory : Directory) : (directory.apply (.remove name)).get? name = none :=
      directory.get?_remove_self name
    rw [absent, absent]
  · cases accepted : change.move? name with
    | none =>
        rw [get?_apply_of_no_move accepted removed, get?_apply_of_no_move accepted removed]
        exact equivalent_iff.mp equivalent name height
    | some move => rw [equivalent.get?_apply_of_move accepted]

theorem reply_eq (equivalent : first.Equivalent second) (change : Change) :
    first.reply change = second.reply change := by
  cases change with
  | install name address currentHeight changeOn =>
      by_cases early : changeOn ≤ currentHeight
      · simp only [reply, (install_eq_error_iff _ name address _ _).mpr ⟨early, rfl⟩]
      · simp only [reply, install_eq_ok _ name address (Height.not_le.mp early)]
  | remove name => exact congrArg Reply.removed (equivalent.names name)

/-- Equivalent directories list the same names with the same addresses. -/
theorem resolveAll_eq (equivalent : first.Equivalent second) (height : Height) :
    first.resolveAll height = second.resolveAll height :=
  SortedMap.map_values_eq_of_get? fun name => equivalent_iff.mp equivalent name height

/-! ## Runs -/

theorem run (equivalent : first.Equivalent second) (changes : List Change) :
    (first.run changes).Equivalent (second.run changes) := by
  induction changes generalizing first second with
  | nil => exact equivalent
  | cons change rest ih => exact ih (equivalent.apply change)

theorem replies_eq (equivalent : first.Equivalent second) (changes : List Change) :
    first.replies changes = second.replies changes := by
  induction changes generalizing first second with
  | nil => rfl
  | cons change rest ih =>
      rw [replies, replies, equivalent.reply_eq change, ih (equivalent.apply change)]

/-- Accepted moves forget how the records they start from differ. -/
theorem follow_eq (equivalent : first.Equivalent second) {name : String} {changes : List Change}
    {moves : List Move} (moved : moves ≠ []) :
    follow (first.recordBefore name changes) moves =
      follow (second.recordBefore name changes) moves := by
  unfold recordBefore
  split
  · rfl
  · cases moves with
    | nil => exact absurd rfl moved
    | cons move rest =>
        have begun : schedule (first.get? name) move.address move.currentHeight move.changeOn =
            schedule (second.get? name) move.address move.currentHeight move.changeOn :=
          schedule_congr (equivalent_iff.mp equivalent name move.currentHeight) _ _
        simp only [follow, List.foldl_cons, begun]

end Equivalent

/-- **Equivalence is a congruence.** Make the same changes on two equivalent directories. Every move
is accepted on both or refused with the same error on both, every removal finds a record on both or
on neither, and the results are again equivalent: at each height they list the same names with the
same addresses, so a refresh requests the same. A variable with a move that was accepted after its
last removal has the same record in both. -/
theorem run_congr {first second : Directory} (equivalent : first.Equivalent second)
    (changes : List Change) :
    first.replies changes = second.replies changes ∧
    (first.run changes).Equivalent (second.run changes) ∧
    (∀ height, (first.run changes).resolveAll height = (second.run changes).resolveAll height ∧
      (first.run changes).requests height = (second.run changes).requests height) ∧
    ∀ name, movesSince name changes ≠ [] →
      (first.run changes).get? name = (second.run changes).get? name := by
  refine ⟨equivalent.replies_eq changes, equivalent.run changes, ?_, ?_⟩
  · intro height
    have listed := (equivalent.run changes).resolveAll_eq height
    refine ⟨listed, ?_⟩
    unfold requests
    rw [listed]
  · intro name moved
    rw [get?_run_eq_follow, get?_run_eq_follow]
    exact equivalent.follow_eq moved

/-- A variable that has been at its future address from the start, and one that is to stay. -/
def settled : Directory := .ofList [
  ("fee", ⟨⟨[1], [1]⟩, ⟨[1], [2]⟩, .mk 0⟩), ("gas", ⟨⟨[1], [3]⟩, ⟨[1], [3]⟩, .mk 40⟩)]

/-- The same variables, the first one with another current address, the second one with another
height. -/
def resettled : Directory := .ofList [
  ("fee", ⟨⟨[7], []⟩, ⟨[1], [2]⟩, .mk 0⟩), ("gas", ⟨⟨[1], [3]⟩, ⟨[1], [3]⟩, .mk 80⟩)]

theorem equivalent_resettled : settled.Equivalent resettled := by
  rw [equivalent_iff]
  intro name height
  simp only [get?, settled, resettled, ofList, SortedMap.get?_ofList, List.reverse_cons,
    List.reverse_nil, List.nil_append, List.cons_append, SortedMap.lookup]
  have always : (Height.mk 0) ≤ height := Nat.zero_le _
  split
  · simp [Relocation.addressAt]
  · split
    · simp [Relocation.addressAt, always]
    · rfl

/-- At height 60 only one of the two records of the second variable has changed. It is moved, the
other variable is dropped, and a move of that one is refused. -/
theorem run_congr_resettled :
    let changes : List Change := [
      .install "gas" ⟨[1], [4]⟩ (.mk 60) (.mk 90), .remove "fee",
      .install "fee" ⟨[1], [5]⟩ (.mk 70) (.mk 70)]
    settled.Equivalent resettled ∧ settled ≠ resettled ∧ movesSince "gas" changes ≠ [] ∧
      settled.replies changes = resettled.replies changes ∧
      (settled.run changes).get? "gas" = (resettled.run changes).get? "gas" := by
  intro changes
  have moved : movesSince "gas" changes ≠ [] := by decide
  obtain ⟨replied, _, _, same⟩ := run_congr equivalent_resettled changes
  exact ⟨equivalent_resettled, by decide, moved, replied, same "gas" moved⟩

end Directory

end ChainVariables
