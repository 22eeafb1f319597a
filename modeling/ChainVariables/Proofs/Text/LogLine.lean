import ChainVariables.Handler
import ChainVariables.Proofs.Splits
import ChainVariables.Proofs.Text.Base64

/-! # What a log line tells

A log line sets the fields of an event next to each other with commas between
them, and neither the name of a variable nor the cause of a failure is quoted.
Still a line tells all that it shows (`ChainVariables.Event.LoggedAlike`): the
kind and the numbers hold no comma, so that the first commas part them from what
follows (`ChainVariables.first_field_eq`), and of the fields that may hold
commas there is only one in a line. It is the last one, or else the last comma
parts it from the number after it (`ChainVariables.last_field_eq`).
-/

namespace ChainVariables

/-- Events that a log does not tell apart: they are of one kind, in the same second, and have the
same contents as far as they are logged. -/
inductive Event.LoggedAlike : Event → Event → Prop where
  | updated {time time' : Timestamp} {height : Height} {size : Nat} {digest digest' : Digest} :
      time.seconds = time'.seconds →
        digest.bytes.bits.take 42 = digest'.bytes.bits.take 42 →
          LoggedAlike (.updated time height size digest) (.updated time' height size digest')
  | updateFailed {time time' : Timestamp} {height : Height} {cause : String} :
      time.seconds = time'.seconds →
        LoggedAlike (.updateFailed time height cause) (.updateFailed time' height cause)
  | overridden {time time' : Timestamp} {name : String} {length : Nat} :
      time.seconds = time'.seconds →
        LoggedAlike (.overridden time name length) (.overridden time' name length)

/-! ## Fields without commas -/

/-- A text without a comma in it. -/
def Unbroken (field : String) : Prop := ',' ∉ field.toList

theorem unbroken_repr (number : Nat) : Unbroken number.repr := by
  intro comma
  rw [Nat.toList_repr] at comma
  have digit := Nat.isDigit_of_mem_toDigits (by decide) (by decide) comma
  exact absurd digit (by decide)

theorem eq_of_repr_eq {number other : Nat} (same : number.repr = other.repr) : number = other := by
  have read (number : Nat) : Nat.ofDigitChars 10 number.repr.toList 0 = number := by
    rw [Nat.toList_repr, Nat.ofDigitChars_toDigits (by decide) (by decide)]
  rw [← read number, same, read]

theorem EventKind.unbroken_name (kind : EventKind) : Unbroken kind.name := by
  unfold Unbroken
  cases kind <;> decide

theorem EventKind.eq_of_name_eq {first second : EventKind} (same : first.name = second.name) :
    first = second := by
  revert same
  cases first <;> cases second <;> decide

theorem toList_field (field rest : String) :
    (field ++ ", " ++ rest).toList = field.toList ++ ',' :: ' ' :: rest.toList := by
  simp

/-- What stands before the first comma of a line. -/
theorem first_field_eq {field field' rest rest' : String} (whole : Unbroken field)
    (whole' : Unbroken field') (same : field ++ ", " ++ rest = field' ++ ", " ++ rest') :
    field = field' ∧ rest = rest' := by
  have split := congrArg String.toList same
  rw [toList_field, toList_field] at split
  obtain ⟨fields, rests⟩ := split_mark_of_notMem whole whole' split
  exact ⟨String.toList_inj.mp fields, String.toList_inj.mp (List.cons.inj rests).2⟩

/-- What stands after the last comma of a line. -/
theorem last_field_eq {field field' rest rest' : String} (whole : Unbroken field)
    (whole' : Unbroken field') (same : rest ++ ", " ++ field = rest' ++ ", " ++ field') :
    rest = rest' ∧ field = field' := by
  have single {field : String} {before after : List Char} (whole : Unbroken field) :
      ' ' :: field.toList ≠ before ++ ',' :: after := by
    intro split
    have comma : ',' ∈ ' ' :: field.toList := split ▸ List.mem_append_right _ List.mem_cons_self
    exact whole ((List.mem_cons.mp comma).resolve_left (by decide))
  have split := congrArg String.toList same
  rw [toList_field, toList_field] at split
  rcases split_mark split with ⟨rests, fields⟩ | ⟨middle, _, later⟩ | ⟨middle, _, later⟩
  · exact ⟨String.toList_inj.mp rests, String.toList_inj.mp (List.cons.inj fields).2⟩
  · exact absurd later (single whole)
  · exact absurd later (single whole')

theorem Height.text_injective {first second : Height} (same : first.text = second.text) :
    first = second :=
  eq_of_toNat_eq (eq_of_repr_eq same)

theorem Digest.short_eq_iff {first second : Digest} :
    Base64.short first.bytes = Base64.short second.bytes ↔
      first.bytes.bits.take 42 = second.bytes.bits.take 42 := by
  have long (digest : Digest) : 6 ≤ digest.bytes.length := by
    rw [digest.length_bytes]
    decide
  exact Base64.short_eq_iff (long first) (long second)

/-! ## Lines -/

namespace Event

variable {first second : Event}

/-- The contents of an event in a line. -/
def written (event : Event) : String := ", ".intercalate event.contents

theorem text_eq (event : Event) :
    event.text = event.kind.name ++ ", " ++ (event.time.seconds.repr ++ ", " ++ event.written) := by
  have fields (name clock field : String) (more : List String) :
      ", ".intercalate (name :: clock :: field :: more) =
        name ++ ", " ++ (clock ++ ", " ++ ", ".intercalate (field :: more)) := by
    rw [String.intercalate_cons_cons, String.intercalate_cons_cons]
  cases event <;> exact fields ..

/-- Lines tell kind, second and contents apart. -/
theorem fields_eq (same : first.text = second.text) :
    first.kind = second.kind ∧ first.time.seconds = second.time.seconds ∧
      first.written = second.written := by
  rw [text_eq, text_eq] at same
  obtain ⟨names, rest⟩ := first_field_eq first.kind.unbroken_name second.kind.unbroken_name same
  obtain ⟨clocks, contents⟩ := first_field_eq (unbroken_repr _) (unbroken_repr _) rest
  exact ⟨EventKind.eq_of_name_eq names, eq_of_repr_eq clocks, contents⟩

theorem written_updated (time : Timestamp) (height : Height) (size : Nat) (digest : Digest) :
    (updated time height size digest).written =
      height.text ++ ", " ++ (size.repr ++ ", " ++ Base64.short digest.bytes) := by
  rw [written, contents, String.intercalate_cons_cons, String.intercalate_cons_cons,
    String.intercalate_singleton]

theorem written_updateFailed (time : Timestamp) (height : Height) (cause : String) :
    (updateFailed time height cause).written = height.text ++ ", " ++ cause := by
  rw [written, contents, String.intercalate_cons_cons, String.intercalate_singleton]

theorem written_overridden (time : Timestamp) (name : String) (length : Nat) :
    (overridden time name length).written = name ++ ", " ++ length.repr := by
  rw [written, contents, String.intercalate_cons_cons, String.intercalate_singleton]

/-- A line tells all that it shows of an event. -/
theorem loggedAlike_of_text_eq (same : first.text = second.text) : first.LoggedAlike second := by
  obtain ⟨kinds, seconds, contents⟩ := fields_eq same
  cases first with
  | updated time height size digest =>
      cases second with
      | updated time' height' size' digest' =>
          rw [written_updated, written_updated] at contents
          obtain ⟨heights, rest⟩ := first_field_eq (unbroken_repr _) (unbroken_repr _) contents
          obtain ⟨sizes, digests⟩ := first_field_eq (unbroken_repr _) (unbroken_repr _) rest
          cases Height.text_injective heights
          cases eq_of_repr_eq sizes
          exact .updated seconds (Digest.short_eq_iff.mp digests)
      | updateFailed => cases kinds
      | overridden => cases kinds
  | updateFailed time height cause =>
      cases second with
      | updateFailed time' height' cause' =>
          rw [written_updateFailed, written_updateFailed] at contents
          obtain ⟨heights, rfl⟩ := first_field_eq (unbroken_repr _) (unbroken_repr _) contents
          cases Height.text_injective heights
          exact .updateFailed seconds
      | updated => cases kinds
      | overridden => cases kinds
  | overridden time name length =>
      cases second with
      | overridden time' name' length' =>
          rw [written_overridden, written_overridden] at contents
          obtain ⟨rfl, lengths⟩ := last_field_eq (unbroken_repr _) (unbroken_repr _) contents
          cases eq_of_repr_eq lengths
          exact .overridden seconds
      | updated => cases kinds
      | updateFailed => cases kinds

theorem LoggedAlike.text_eq (alike : first.LoggedAlike second) : first.text = second.text := by
  cases alike with
  | updated seconds digests =>
      simp only [Event.text_eq, kind, time, written_updated, seconds, Digest.short_eq_iff.mpr digests]
  | updateFailed seconds => simp only [Event.text_eq, kind, time, written_updateFailed, seconds]
  | overridden seconds => simp only [Event.text_eq, kind, time, written_overridden, seconds]

end Event

/-- A logger prints the line of the event and nothing else. -/
theorem Handler.logs_loggers {ν : Type} (event : Event) (snapshot : Snapshot) :
    (Handler.fire (Handler.loggers : List (Handler ν)) event snapshot).logs.map LogEntry.text =
      [event.text] := by
  cases event <;> rfl

/-- The seconds that are logged are the whole ones since the epoch, and 0 before it. -/
theorem Timestamp.seconds_eq (time : Timestamp) :
    time.seconds = if time.nanos < 0 then 0 else time.nanos.toNat / Duration.second := by
  split
  case isTrue before => exact seconds_eq_zero_of_neg before
  case isFalse after =>
    unfold seconds Duration.second
    omega

/-- **Log lines are decodable.** The loggers print the same of two events exactly if they are of the
same kind, in the same whole second since the epoch (0 stands for all times before it), and have
the same height, number of variables and first 42 bits of the digest if they are refreshes, the
same height and cause if they are failed ones, and the same name and length if they are overrides. -/
theorem Event.logs_eq_iff {ν : Type} (first second : Event) (snapshot snapshot' : Snapshot) :
    ((Handler.fire (Handler.loggers : List (Handler ν)) first snapshot).logs.map LogEntry.text =
        (Handler.fire (Handler.loggers : List (Handler ν)) second snapshot').logs.map
          LogEntry.text ↔ first.LoggedAlike second) ∧
      ∀ time : Timestamp,
        time.seconds = if time.nanos < 0 then 0 else time.nanos.toNat / Duration.second := by
  refine ⟨?_, Timestamp.seconds_eq⟩
  rw [Handler.logs_loggers, Handler.logs_loggers, List.singleton_inj]
  exact ⟨loggedAlike_of_text_eq, LoggedAlike.text_eq⟩

end ChainVariables
