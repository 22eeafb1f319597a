import ChainVariables.Proofs.Directory.History

/-! # Moves are announced

While a chain stands at a height, moves can be proposed for the heights above it
and for no others. Proposals therefore never change where a variable is read at
the height they are made at (`ChainVariables.Directory.resolve_propose`), and a
variable is found elsewhere at the next height only if its record said so
before that height began, because of a proposal made by then
(`ChainVariables.Directory.resolve_next_ne_iff`).
-/

namespace ChainVariables

/-- Every machine word is the number of a height. -/
def Height.ofUInt64 (number : UInt64) : Height := ⟨number.toNat, number.toNat_lt⟩

namespace Directory

/-- A move of a variable that is asked for at some height. -/
structure Proposal where
  name : String
  address : Address
  changeOn : Height
  deriving DecidableEq

/-- The change that a proposal asks for when it is made at a height. -/
def Proposal.change (proposal : Proposal) (height : Height) : Change :=
  .install proposal.name proposal.address height proposal.changeOn

/-- Makes proposals at a height, in order; those that are refused change nothing. -/
def propose (directory : Directory) (height : Height) (proposals : List Proposal) : Directory :=
  directory.run (proposals.map (·.change height))

/-- The directory at the end of a height, if it is empty before height 0 and these proposals are
made at each height. -/
def endOf (plan : Height → List Proposal) : (height : Nat) → height < UInt64.size → Directory
  | 0, bound => empty.propose ⟨0, bound⟩ (plan ⟨0, bound⟩)
  | height + 1, bound =>
      (endOf plan height (Nat.lt_of_succ_lt bound)).propose ⟨height + 1, bound⟩
        (plan ⟨height + 1, bound⟩)

def directoryAt (plan : Height → List Proposal) (height : Height) : Directory :=
  endOf plan height.toNat height.toNat_lt

theorem directoryAt_next (plan : Height → List Proposal) {height next : Height}
    (successor : next.toNat = height.toNat + 1) :
    directoryAt plan next = (directoryAt plan height).propose next (plan next) := by
  obtain ⟨number, bound⟩ := next
  subst successor
  rfl

theorem propose_concat (directory : Directory) (height : Height) (proposals : List Proposal)
    (proposal : Proposal) :
    directory.propose height (proposals ++ [proposal]) =
      (directory.propose height proposals).apply (proposal.change height) := by
  unfold propose
  rw [List.map_append, List.map_singleton, run_concat]

theorem move?_change {proposal : Proposal} {height : Height} {name : String} {move : Move}
    (accepted : (proposal.change height).move? name = some move) :
    height < proposal.changeOn ∧ proposal.name = name ∧
      move = ⟨proposal.address, height, proposal.changeOn⟩ := by
  simp only [Proposal.change, Change.move?, Option.ite_none_right_eq_some, Option.some.injEq]
    at accepted
  obtain ⟨⟨same, above⟩, rfl⟩ := accepted
  exact ⟨above, same, rfl⟩

/-! ## The height of the proposals -/

/-- Up to its own height a move leaves a variable where it is. -/
theorem addressAt_schedule (existing : Relocation) (address : Address)
    {currentHeight changeOn : Height} (above : currentHeight < changeOn) :
    (schedule (some existing) address currentHeight changeOn).addressAt currentHeight =
      existing.addressAt currentHeight := by
  have early : ¬ changeOn ≤ currentHeight := Height.not_le.mpr above
  unfold schedule
  rw [Relocation.addressAt, if_neg early]
  rfl

theorem resolve_eq_ok_iff {directory : Directory} {name : String} {height : Height}
    {address : Address} : directory.resolve name height = .ok address ↔
      ∃ record, directory.get? name = some record ∧ record.addressAt height = address := by
  unfold resolve
  cases directory.get? name <;> simp

/-- One proposal does not change where a variable is read at its height. -/
theorem resolve_apply_change {directory : Directory} {height : Height} (proposal : Proposal)
    {name : String} {address : Address} (resolved : directory.resolve name height = .ok address) :
    (directory.apply (proposal.change height)).resolve name height = .ok address := by
  obtain ⟨existing, before, rfl⟩ := resolve_eq_ok_iff.mp resolved
  rw [resolve_eq_ok_iff]
  cases accepted : (proposal.change height).move? name with
  | none =>
      have same : (directory.apply (proposal.change height)).get? name = directory.get? name :=
        get?_apply_of_no_move accepted nofun
      exact ⟨existing, same.trans before, rfl⟩
  | some move =>
      obtain ⟨above, rfl, rfl⟩ := move?_change accepted
      have after : (directory.apply (proposal.change height)).get? proposal.name = _ :=
        get?_apply_of_move accepted
      rw [before] at after
      exact ⟨_, after, addressAt_schedule existing proposal.address above⟩

/-- **No fork at a height.** Whatever is proposed at a height, every variable of the directory
resolves at that height as it did before. -/
theorem resolve_propose {directory : Directory} {height : Height} (proposals : List Proposal)
    {name : String} {address : Address} (resolved : directory.resolve name height = .ok address) :
    (directory.propose height proposals).resolve name height = .ok address := by
  induction proposals using List.reverseRecOn with
  | nil => exact resolved
  | append_singleton proposals proposal ih =>
      rw [propose_concat]
      exact resolve_apply_change proposal ih

/-! ## Where a record comes from -/

/-- A record is from before a change or leads where the change says. -/
theorem origin_of_apply {directory : Directory} {change : Change} {name : String}
    {record : Relocation} (found : (directory.apply change).get? name = some record) :
    directory.get? name = some record ∨ ∃ move, change.move? name = some move ∧
      record.future = move.address ∧ record.changeOn = move.changeOn := by
  by_cases removed : change = .remove name
  · subst removed
    have absent : (directory.apply (.remove name)).get? name = none := get?_remove_self _ _
    rw [absent] at found
    cases found
  · cases accepted : change.move? name with
    | none => exact .inl ((get?_apply_of_no_move accepted removed).symm.trans found)
    | some move =>
        rw [get?_apply_of_move accepted] at found
        cases found
        exact .inr ⟨move, rfl, rfl, rfl⟩

/-- A proposal made at a height that announces where a record leads, and from which height on. -/
def Proposal.Announces (proposal : Proposal) (height : Height) (name : String)
    (record : Relocation) : Prop :=
  height < proposal.changeOn ∧ proposal.name = name ∧ proposal.address = record.future ∧
    proposal.changeOn = record.changeOn

theorem origin_of_propose {directory : Directory} {height : Height} {proposals : List Proposal}
    {name : String} {record : Relocation}
    (found : (directory.propose height proposals).get? name = some record) :
    directory.get? name = some record ∨
      ∃ proposal ∈ proposals, proposal.Announces height name record := by
  induction proposals using List.reverseRecOn with
  | nil => exact .inl found
  | append_singleton proposals proposal ih =>
      rw [propose_concat] at found
      rcases origin_of_apply found with earlier | ⟨move, accepted, future, changeOn⟩
      · rcases ih earlier with before | ⟨other, member, announces⟩
        · exact .inl before
        · exact .inr ⟨other, List.mem_append_left _ member, announces⟩
      · obtain ⟨above, same, rfl⟩ := move?_change accepted
        have last : proposal ∈ proposals ++ [proposal] := by simp
        exact .inr ⟨proposal, last, above, same, future.symm, changeOn.symm⟩

/-- Every record of a chain was announced at its height or before. -/
theorem announced_of_get? {plan : Height → List Proposal} {height : Height} {name : String}
    {record : Relocation} (found : (directoryAt plan height).get? name = some record) :
    ∃ asked ≤ height, ∃ proposal ∈ plan asked, proposal.Announces asked name record := by
  obtain ⟨number, bound⟩ := height
  induction number with
  | zero =>
      have begun : (empty.propose ⟨0, bound⟩ (plan ⟨0, bound⟩)).get? name = some record := found
      rcases origin_of_propose begun with before | announced
      · cases before
      · exact ⟨_, Nat.le_refl 0, announced⟩
  | succ number ih =>
      have smaller : number < UInt64.size := Nat.lt_of_succ_lt bound
      have grown : directoryAt plan ⟨number + 1, bound⟩ =
          (directoryAt plan ⟨number, smaller⟩).propose ⟨number + 1, bound⟩ _ :=
        directoryAt_next plan rfl
      rw [grown] at found
      rcases origin_of_propose found with before | announced
      · obtain ⟨asked, earlier, announced⟩ := ih smaller before
        exact ⟨asked, Nat.le_succ_of_le earlier, announced⟩
      · exact ⟨_, Nat.le_refl _, announced⟩

/-! ## From one height to the next -/

/-- A record leads elsewhere from one height to the next exactly if it changes there. -/
theorem addressAt_next_ne_iff (record : Relocation) {height next : Height}
    (successor : next.toNat = height.toNat + 1) :
    record.addressAt next ≠ record.addressAt height ↔
      record.changeOn = next ∧ record.current ≠ record.future := by
  unfold Relocation.addressAt
  rcases Nat.lt_trichotomy record.changeOn.toNat next.toNat with earlier | same | later
  · have before : record.changeOn ≤ height := by
      rw [Height.le_iff]
      omega
    have reached : record.changeOn ≤ next := Nat.le_of_lt earlier
    have different : record.changeOn ≠ next :=
      fun same => (congrArg Height.toNat same).not_lt earlier
    simp [before, reached, different]
  · have changes : record.changeOn = next := Height.eq_of_toNat_eq same
    have reached : record.changeOn ≤ next := Nat.le_of_eq same
    have before : ¬ record.changeOn ≤ height := by
      rw [Height.le_iff]
      omega
    rw [if_pos reached, if_neg before]
    simp [changes, eq_comm]
  · have before : ¬ record.changeOn ≤ height := by
      rw [Height.le_iff]
      omega
    have reached : ¬ record.changeOn ≤ next := Nat.not_le.mpr later
    have different : record.changeOn ≠ next :=
      fun same => (congrArg Height.toNat same).not_gt later
    simp [before, reached, different]

/-- **No unannounced move.** From one height to the next a variable is found elsewhere exactly if
its record, as it stood at the end of the lower height, changes at the higher one and leads
somewhere else. It is then found where that record leads, whatever is proposed at the higher
height, and the record was announced at the lower height or before. -/
theorem resolve_next_ne_iff (plan : Height → List Proposal) {height next : Height}
    (successor : next.toNat = height.toNat + 1) {name : String} {record : Relocation}
    (found : (directoryAt plan height).get? name = some record) :
    ((directoryAt plan next).resolve name next ≠ (directoryAt plan height).resolve name height ↔
      record.changeOn = next ∧ record.current ≠ record.future) ∧
    (record.changeOn = next → (directoryAt plan next).resolve name next = .ok record.future) ∧
    (∀ proposals, ((directoryAt plan height).propose next proposals).resolve name next =
      (directoryAt plan next).resolve name next) ∧
    ∃ asked ≤ height, ∃ proposal ∈ plan asked, proposal.Announces asked name record := by
  have lower : (directoryAt plan height).resolve name height = .ok (record.addressAt height) :=
    resolve_eq_ok_iff.mpr ⟨record, found, rfl⟩
  have ahead : (directoryAt plan height).resolve name next = .ok (record.addressAt next) :=
    resolve_eq_ok_iff.mpr ⟨record, found, rfl⟩
  have higher : (directoryAt plan next).resolve name next = .ok (record.addressAt next) := by
    rw [directoryAt_next plan successor]
    exact resolve_propose (plan next) ahead
  refine ⟨?_, ?_, ?_, announced_of_get? found⟩
  · rw [higher, lower, ← addressAt_next_ne_iff record successor]
    simp
  · intro changes
    have reached : record.changeOn ≤ next := Nat.le_of_eq (congrArg Height.toNat changes)
    rw [higher, Relocation.addressAt, if_pos reached]
  · intro proposals
    rw [higher]
    exact resolve_propose proposals ahead

/-- A variable is installed at height 0, a first move is replaced before its height, the second one
is due at height 3, and at that height a third one is proposed and another refused. -/
def replacedMove (height : Height) : List Proposal :=
  match height.toNat with
  | 0 => [⟨"fee", ⟨[1], [1]⟩, .ofUInt64 1⟩]
  | 1 => [⟨"fee", ⟨[1], [2]⟩, .ofUInt64 3⟩]
  | 2 => [⟨"fee", ⟨[1], [3]⟩, .ofUInt64 3⟩, ⟨"fee", ⟨[1], [4]⟩, .ofUInt64 2⟩]
  | 3 => [⟨"fee", ⟨[1], [5]⟩, .ofUInt64 9⟩, ⟨"fee", ⟨[1], [6]⟩, .ofUInt64 3⟩]
  | _ => []

theorem resolve_next_ne_replacedMove :
    (directoryAt replacedMove (.mk 2)).get? "fee" = some ⟨⟨[1], [1]⟩, ⟨[1], [3]⟩, .mk 3⟩ ∧
      (directoryAt replacedMove (.mk 3)).resolve "fee" (.mk 3) ≠
        (directoryAt replacedMove (.mk 2)).resolve "fee" (.mk 2) ∧
      (directoryAt replacedMove (.mk 3)).resolve "fee" (.mk 3) = .ok ⟨[1], [3]⟩ := by
  have found : (directoryAt replacedMove (.mk 2)).get? "fee" =
      some ⟨⟨[1], [1]⟩, ⟨[1], [3]⟩, .mk 3⟩ := by decide
  have successor : (Height.mk 3).toNat = (Height.mk 2).toNat + 1 := rfl
  obtain ⟨moves, target, _⟩ := resolve_next_ne_iff replacedMove successor found
  exact ⟨found, moves.mpr ⟨rfl, by decide⟩, target rfl⟩

end Directory

end ChainVariables
