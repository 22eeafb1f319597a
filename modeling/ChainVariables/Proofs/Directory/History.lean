import Mathlib.Data.List.DropRight
import Mathlib.Data.List.Induction
import ChainVariables.Directory

/-! # Histories of a directory

A directory changes by moves that are asked for and by records that are dropped.
The record of a variable after any run of such changes is fixed by the moves of
that variable that were accepted after its last removal, and by the record they
started from (`ChainVariables.Directory.get?_run_eq_follow`). The last move
gives the record its future address and its height. The current address is that
of the last move whose height had been reached when the move after it was asked
for (`ChainVariables.Directory.record_run`): a move replaced before its height
leaves no trace.
-/

namespace ChainVariables

namespace Directory

/-- A change to a directory, as it is asked for. -/
inductive Change where
  | install (name : String) (address : Address) (currentHeight changeOn : Height)
  | remove (name : String)
  deriving DecidableEq

/-- A move of one variable, as it is asked for. -/
structure Move where
  address : Address
  currentHeight : Height
  changeOn : Height

/-- Makes a change. A move that is refused changes nothing. -/
def apply (directory : Directory) : Change → Directory
  | .install name address currentHeight changeOn =>
      match directory.install name address currentHeight changeOn with
      | .ok next => next
      | .error _ => directory
  | .remove name => directory.remove name

/-- Makes changes in order. -/
def run (directory : Directory) (changes : List Change) : Directory :=
  changes.foldl apply directory

/-- The move of a variable that a change makes, if it is one and lies above the current height. -/
def Change.move? (name : String) : Change → Option Move
  | .install other address currentHeight changeOn =>
      if other = name ∧ currentHeight < changeOn then some ⟨address, currentHeight, changeOn⟩
      else none
  | .remove _ => none

/-- The moves of a variable that were accepted after its last removal. -/
def movesSince (name : String) (changes : List Change) : List Move :=
  (changes.rtakeWhile (· ≠ .remove name)).filterMap (·.move? name)

/-- The record that those moves start from: none after a removal. -/
def recordBefore (directory : Directory) (name : String) (changes : List Change) :
    Option Relocation :=
  if .remove name ∈ changes then none else directory.get? name

/-- The record that moves lead to from another one. -/
def follow (record : Option Relocation) (moves : List Move) : Option Relocation :=
  moves.foldl (fun record move =>
    some (schedule record move.address move.currentHeight move.changeOn)) record

/-- The height of a move had been reached when the next one was asked for. -/
def TookEffect (moves : List Move) (index : Nat) : Prop :=
  ∃ move next, moves[index]? = some move ∧ moves[index + 1]? = some next ∧
    move.changeOn ≤ next.currentHeight

theorem run_concat (directory : Directory) (changes : List Change) (change : Change) :
    directory.run (changes ++ [change]) = (directory.run changes).apply change := by
  unfold run
  rw [List.foldl_append]
  rfl

theorem install_eq_ok (directory : Directory) (name : String) (address : Address)
    {currentHeight changeOn : Height} (above : currentHeight < changeOn) :
    directory.install name address currentHeight changeOn =
      .ok ⟨directory.records.insert name
        (schedule (directory.get? name) address currentHeight changeOn)⟩ := by
  unfold install
  rw [if_neg (Height.not_le.mpr above)]

theorem apply_install_of_le (directory : Directory) (name : String) (address : Address)
    {currentHeight changeOn : Height} (early : changeOn ≤ currentHeight) :
    directory.apply (.install name address currentHeight changeOn) = directory := by
  simp only [apply, (install_eq_error_iff directory name address _ _).mpr ⟨early, rfl⟩]

/-! ## One change -/

theorem get?_apply_of_move {directory : Directory} {name : String} {change : Change} {move : Move}
    (accepted : change.move? name = some move) :
    (directory.apply change).get? name =
      some (schedule (directory.get? name) move.address move.currentHeight move.changeOn) := by
  cases change with
  | install other address currentHeight changeOn =>
      simp only [Change.move?, Option.ite_none_right_eq_some, Option.some.injEq] at accepted
      obtain ⟨⟨rfl, above⟩, rfl⟩ := accepted
      have installed := directory.install_eq_ok other address above
      simp only [apply, installed]
      exact get?_of_install installed
  | remove other => cases accepted

theorem get?_apply_of_no_move {directory : Directory} {name : String} {change : Change}
    (ignored : change.move? name = none) (kept : change ≠ .remove name) :
    (directory.apply change).get? name = directory.get? name := by
  cases change with
  | install other address currentHeight changeOn =>
      simp only [Change.move?, ite_eq_right_iff, reduceCtorEq, imp_false, not_and] at ignored
      by_cases early : changeOn ≤ currentHeight
      · rw [apply_install_of_le directory other address early]
      · have above : currentHeight < changeOn := Height.not_le.mp early
        have different : name ≠ other := fun same => ignored same.symm above
        have installed := directory.install_eq_ok other address above
        simp only [apply, installed]
        exact get?_of_install_of_ne installed different
  | remove other =>
      have different : name ≠ other := fun same => kept (by rw [same])
      exact directory.get?_remove_of_ne different

/-! ## Whole histories -/

theorem movesSince_concat_remove (name : String) (changes : List Change) :
    movesSince name (changes ++ [.remove name]) = [] := by
  unfold movesSince
  rw [List.rtakeWhile_concat_neg _ _ _ (by simp)]
  rfl

theorem movesSince_concat (name : String) (changes : List Change) {change : Change}
    (kept : change ≠ .remove name) :
    movesSince name (changes ++ [change]) =
      movesSince name changes ++ (change.move? name).toList := by
  unfold movesSince
  rw [List.rtakeWhile_concat_pos _ _ _ (by simpa using kept), List.filterMap_append]
  cases accepted : change.move? name <;> simp [accepted]

theorem follow_concat (record : Option Relocation) (moves : List Move) (move : Move) :
    follow record (moves ++ [move]) =
      some (schedule (follow record moves) move.address move.currentHeight move.changeOn) := by
  unfold follow
  rw [List.foldl_append]
  rfl

/-- The record of a variable after any changes follows from its accepted moves alone. -/
theorem get?_run_eq_follow (directory : Directory) (name : String) (changes : List Change) :
    (directory.run changes).get? name =
      follow (directory.recordBefore name changes) (movesSince name changes) := by
  induction changes using List.reverseRecOn with
  | nil => rfl
  | append_singleton changes change ih =>
      rw [run_concat]
      by_cases removed : change = .remove name
      · subst removed
        rw [movesSince_concat_remove]
        have started : directory.recordBefore name (changes ++ [.remove name]) = none := by
          simp [recordBefore]
        rw [started]
        exact get?_remove_self _ _
      · have started : directory.recordBefore name (changes ++ [change]) =
            directory.recordBefore name changes := by
          simp only [recordBefore, List.mem_append, List.mem_singleton, Ne.symm removed, or_false]
        rw [movesSince_concat name changes removed, started]
        cases accepted : change.move? name with
        | none =>
            rw [get?_apply_of_no_move accepted removed, ih, Option.toList_none, List.append_nil]
        | some move =>
            rw [get?_apply_of_move accepted, ih, Option.toList_some, follow_concat]

/-! ## The current address -/

/-- One more move can only let the one before it take effect. -/
theorem tookEffect_concat (moves : List Move) (move : Move) (index : Nat) :
    TookEffect (moves ++ [move]) index ↔ TookEffect moves index ∨
      ∃ previous, moves[index]? = some previous ∧ index + 1 = moves.length ∧
        previous.changeOn ≤ move.currentHeight := by
  unfold TookEffect
  refine ⟨?_, ?_⟩
  · intro taken
    obtain ⟨held, next, found, followed, reached⟩ := taken
    obtain ⟨inside, _⟩ := List.getElem?_eq_some_iff.mp followed
    rw [List.length_append, List.length_singleton] at inside
    rw [List.getElem?_append_left (by omega)] at found
    by_cases final : index + 1 = moves.length
    · rw [final, List.getElem?_concat_length] at followed
      cases followed
      exact .inr ⟨held, found, final, reached⟩
    · rw [List.getElem?_append_left (by omega)] at followed
      exact .inl ⟨held, next, found, followed, reached⟩
  · intro cause
    rcases cause with ⟨held, next, found, followed, reached⟩ | ⟨previous, found, final, reached⟩
    · obtain ⟨inside, _⟩ := List.getElem?_eq_some_iff.mp followed
      refine ⟨held, next, ?_, ?_, reached⟩
      · rw [List.getElem?_append_left (by omega), found]
      · rw [List.getElem?_append_left inside, followed]
    · refine ⟨previous, move, ?_, ?_, reached⟩
      · rw [List.getElem?_append_left (by omega), found]
      · rw [final, List.getElem?_concat_length]

/-- The address that counted when the first move was asked for. -/
def startingAddress (record : Option Relocation) (first : Move) : Address :=
  match record with
  | none => first.address
  | some held => if held.changeOn ≤ first.currentHeight then held.future else held.current

theorem schedule_current (record : Option Relocation) (move : Move) :
    (schedule record move.address move.currentHeight move.changeOn).current =
      startingAddress record move := by
  cases record <;> rfl

theorem not_tookEffect_singleton (move : Move) (index : Nat) : ¬ TookEffect [move] index := by
  intro taken
  obtain ⟨held, next, found, followed, reached⟩ := taken
  simp at followed

/-- An address is the current one after some moves: it is that of the last move that took effect,
or, if none did, the one that counted before. -/
def IsCurrent (record : Option Relocation) (moves : List Move) (current : Address) : Prop :=
  (∀ index move, moves[index]? = some move → TookEffect moves index →
    (∀ later, index < later → ¬ TookEffect moves later) → current = move.address) ∧
  ((∀ index, ¬ TookEffect moves index) → ∀ first, moves.head? = some first →
    current = startingAddress record first)

/-- The move before the last one is in force if its height has been reached. -/
theorem isCurrent_concat_of_reached (record : Option Relocation) (earlier : List Move)
    (previous last : Move) (reached : previous.changeOn ≤ last.currentHeight) :
    IsCurrent record (earlier ++ [previous] ++ [last]) previous.address := by
  have effect : TookEffect (earlier ++ [previous] ++ [last]) earlier.length :=
    (tookEffect_concat _ _ _).mpr (.inr ⟨previous, by simp, by simp, reached⟩)
  refine ⟨?_, ?_⟩
  · intro index move found taken latest
    have position : index = earlier.length := by
      rcases Nat.lt_trichotomy index earlier.length with before | same | after
      · exact absurd effect (latest _ before)
      · exact same
      · obtain ⟨_, next, _, followed, _⟩ := taken
        obtain ⟨inside, _⟩ := List.getElem?_eq_some_iff.mp followed
        simp only [List.length_append, List.length_singleton] at inside
        omega
    subst position
    simp only [List.append_assoc, List.cons_append, List.nil_append,
      List.getElem?_append_right (Nat.le_refl _), Nat.sub_self, List.getElem?_cons_zero,
      Option.some.injEq] at found
    rw [found]
  · intro idle
    exact absurd effect (idle _)

/-- A move whose height has not been reached is dropped by the next one. -/
theorem isCurrent_concat_of_not_reached {record : Option Relocation} {earlier : List Move}
    {previous last : Move} {current : Address} (early : ¬ previous.changeOn ≤ last.currentHeight)
    (before : IsCurrent record (earlier ++ [previous]) current) :
    IsCurrent record (earlier ++ [previous] ++ [last]) current := by
  have same (index : Nat) : TookEffect (earlier ++ [previous] ++ [last]) index ↔
      TookEffect (earlier ++ [previous]) index := by
    rw [tookEffect_concat]
    refine ⟨?_, .inl⟩
    intro cause
    rcases cause with taken | ⟨held, found, final, reached⟩
    · exact taken
    · rw [List.length_append, List.length_singleton] at final
      obtain rfl : index = earlier.length := by omega
      rw [List.getElem?_concat_length] at found
      cases found
      exact absurd reached early
  obtain ⟨latest, start⟩ := before
  refine ⟨?_, ?_⟩
  · intro index move found taken later
    have shorter := (same index).mp taken
    obtain ⟨_, _, _, followed, _⟩ := id shorter
    obtain ⟨inside, _⟩ := List.getElem?_eq_some_iff.mp followed
    rw [List.getElem?_append_left (by omega)] at found
    exact latest index move found shorter fun position after taken' =>
      later position after ((same position).mpr taken')
  · intro idle first head
    apply start (fun index taken => idle index ((same index).mpr taken)) first
    cases earlier <;> simpa using head

/-- The record after some moves is made of the last move and the current address. -/
theorem follow_eq (record : Option Relocation) (earlier : List Move) (last : Move) :
    ∃ current, follow record (earlier ++ [last]) =
        some ⟨current, last.address, last.changeOn⟩ ∧
      IsCurrent record (earlier ++ [last]) current := by
  induction earlier using List.reverseRecOn generalizing last with
  | nil =>
      refine ⟨startingAddress record last, ?_, ?_, ?_⟩
      · rw [follow_concat, ← schedule_current]
        rfl
      · intro index move _ taken
        exact absurd taken (not_tookEffect_singleton _ _)
      · intro _ first head
        cases head
        rfl
  | append_singleton earlier previous ih =>
      obtain ⟨current, followed, before⟩ := ih previous
      rw [follow_concat, followed]
      by_cases reached : previous.changeOn ≤ last.currentHeight
      · refine ⟨previous.address, ?_, isCurrent_concat_of_reached _ _ _ _ reached⟩
        simp [schedule, Relocation.addressAt, reached]
      · refine ⟨current, ?_, isCurrent_concat_of_not_reached reached before⟩
        simp [schedule, Relocation.addressAt, reached]

/-- **The closed form of a history.** The record of a variable after any run of changes depends
only on its moves accepted since its last removal and on the record they started from. Without
such moves it is that record. Otherwise it leads from the current address to that of the last
move; every height from the last move's on resolves to the latter, every height below to the
former. A move is refused exactly if it does not lie above the current height, and then nothing
changes. -/
theorem record_run (directory : Directory) (name : String) (changes : List Change) :
    (movesSince name changes = [] →
      (directory.run changes).get? name = directory.recordBefore name changes) ∧
    (∀ earlier last, movesSince name changes = earlier ++ [last] →
      ∃ current,
        (directory.run changes).get? name = some ⟨current, last.address, last.changeOn⟩ ∧
        IsCurrent (directory.recordBefore name changes) (earlier ++ [last]) current ∧
        (∀ height, last.changeOn ≤ height →
          (directory.run changes).resolve name height = .ok last.address) ∧
        (∀ height, height < last.changeOn →
          (directory.run changes).resolve name height = .ok current)) ∧
    (∀ other address currentHeight changeOn,
      ((∃ error, (directory.run changes).install other address currentHeight changeOn =
          .error error) ↔ changeOn ≤ currentHeight) ∧
      (changeOn ≤ currentHeight →
        directory.run (changes ++ [.install other address currentHeight changeOn]) =
          directory.run changes)) := by
  have record := directory.get?_run_eq_follow name changes
  refine ⟨?_, ?_, ?_⟩
  · intro none
    rw [record, none]
    rfl
  · intro earlier last moves
    obtain ⟨current, followed, standing⟩ :=
      follow_eq (directory.recordBefore name changes) earlier last
    rw [moves, followed] at record
    refine ⟨current, record, standing, ?_, ?_⟩
    · intro height reached
      simp [resolve, record, Relocation.addressAt, reached]
    · intro height below
      have early : ¬ last.changeOn ≤ height := Height.not_le.mpr below
      simp [resolve, record, Relocation.addressAt, early]
  · intro other address currentHeight changeOn
    refine ⟨?_, ?_⟩
    · refine ⟨?_, ?_⟩
      · intro failed
        obtain ⟨error, refused⟩ := failed
        exact ((install_eq_error_iff _ _ _ _ _).mp refused).1
      · intro early
        exact ⟨_, (install_eq_error_iff _ _ _ _ _).mpr ⟨early, rfl⟩⟩
    · intro early
      rw [run_concat, apply_install_of_le _ _ _ early]

end Directory

end ChainVariables
