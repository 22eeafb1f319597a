import Mathlib.Data.List.Chain
import ChainVariables.Failure
import ChainVariables.Proofs.Cache.Events
import ChainVariables.Proofs.Text.LogLine

/-! # Messages and the errors behind them

An error prints some words of its own and then all that its source prints
(`ChainVariables.Failure.tells_source`). So along the chain of sources the
messages grow shorter and none is lost: every one of them ends with the message
of the last error, where the trouble began
(`ChainVariables.Failure.message_of_chain`). A failed refresh is announced with
the message of its error, which therefore names that trouble as well.
-/

namespace ChainVariables

/-- A text prints another one at its end, after something else. -/
def EndsIn (whole part : String) : Prop := ∃ lead, lead ≠ "" ∧ whole = lead ++ part

namespace EndsIn

theorem append (lead : String) (nonempty : lead ≠ "") (part : String) :
    EndsIn (lead ++ part) part := ⟨lead, nonempty, rfl⟩

theorem append_append (start words : String) (nonempty : words ≠ "") (part : String) :
    EndsIn (start ++ words ++ part) part := by
  refine append _ ?_ part
  intro vacant
  exact nonempty (String.append_eq_empty_iff.mp vacant).2

theorem trans {whole middle part : String} (outer : EndsIn whole middle)
    (inner : EndsIn middle part) : EndsIn whole part := by
  obtain ⟨lead, nonempty, rfl⟩ := outer
  obtain ⟨lead', _, rfl⟩ := inner
  refine ⟨lead ++ lead', ?_, String.append_assoc.symm⟩
  intro vacant
  exact nonempty (String.append_eq_empty_iff.mp vacant).1

end EndsIn

namespace Failure

variable {failure source : Failure}

/-- An error prints all that another one prints, after words of its own. -/
def Tells (error cause : Failure) : Prop := EndsIn error.message cause.message

instance : Trans Tells Tells Tells := ⟨EndsIn.trans⟩

/-- **An error tells its source.** -/
theorem tells_source (behind : failure.source? = some source) : failure.Tells source := by
  cases failure with
  | io error =>
      cases error with
      | bare kind => cases behind
      | described kind text => cases behind
      | wrapping kind cause =>
          -- it prints as the decoding error, and has the source of the decoding error
          cases cause with
          | malformed cause =>
              cases behind
              exact .append "malformed value: " (by decide) _
          | trailing remaining => cases behind
  | decode error =>
      cases error with
      | malformed cause =>
          cases behind
          exact .append "malformed value: " (by decide) _
      | trailing remaining => cases behind
  | store error =>
      cases error with
      | keyNotFound address => cases behind
      | unavailable reason => cases behind
      | io cause =>
          cases behind
          exact .append "store I/O error: " (by decide) _
  | directory error => cases behind
  | fetch error =>
      cases error with
      | unavailable name address cause =>
          cases behind
          exact .append_append _ ": " (by decide) _
      | timeout received expected limit => cases behind
      | disconnected received expected => cases behind
      | spawnFailed name cause =>
          cases behind
          exact .append_append _ ": " (by decide) _
  | update error =>
      cases error with
      | fetchDirectory cause =>
          cases behind
          exact .append "failed to fetch location directory: " (by decide) _
      | decodeDirectory cause =>
          cases behind
          exact .append "failed to decode location directory: " (by decide) _
      | fetch cause =>
          cases behind
          exact .append "failed to fetch system variables: " (by decide) _
      | encodeSnapshot cause =>
          cases behind
          exact .append "failed to encode new snapshot: " (by decide) _
  | get error =>
      cases error with
      | notFound name => cases behind
      | malformed name cause =>
          cases behind
          exact .append_append _ " is malformed: " (by decide) _
  | set error =>
      cases error with
      | encode name cause =>
          cases behind
          exact .append_append _ ": " (by decide) _

/-- A refresh does not fail on its own account. -/
theorem exists_source_of_update (error : UpdateError) :
    ∃ source, (update error).source? = some source := by
  cases error with
  | fetchDirectory cause => exact ⟨.store cause, rfl⟩
  | decodeDirectory cause => exact ⟨.decode cause, rfl⟩
  | fetch cause => exact ⟨.fetch cause, rfl⟩
  | encodeSnapshot cause => exact ⟨.io cause, rfl⟩

/-! ## Whole chains -/

theorem chain_of_none (root : failure.source? = none) : chain failure = [failure] := by
  rw [chain]
  split
  next => rfl
  next source behind => rw [root] at behind; cases behind

theorem chain_of_some (behind : failure.source? = some source) :
    chain failure = failure :: chain source := by
  rw [chain]
  split
  next root => rw [root] at behind; cases behind
  next other behind' =>
    rw [behind] at behind'
    cases behind'
    rfl

theorem head?_chain (failure : Failure) : (chain failure).head? = some failure := by
  rw [chain]
  rfl

/-- What holds of every error without a source, and of every other one if it holds of its source,
holds of all errors. -/
theorem source_induction {holds : Failure → Prop}
    (root : ∀ failure, failure.source? = none → holds failure)
    (step : ∀ failure source, failure.source? = some source → holds source → holds failure)
    (failure : Failure) : holds failure := by
  cases behind : failure.source? with
  | none => exact root failure behind
  | some source =>
      have := sizeOf_source_lt behind
      exact step failure source behind (source_induction root step source)
  termination_by sizeOf failure

/-- Each error of a chain is the source of the one before it, and told by it. -/
theorem isChain_chain (failure : Failure) :
    (chain failure).IsChain fun error source =>
      error.source? = some source ∧ error.Tells source := by
  induction failure using source_induction with
  | root failure root =>
      rw [chain_of_none root]
      exact .singleton failure
  | step failure source behind ih =>
      rw [chain_of_some behind]
      refine .cons ih ?_
      intro next first
      rw [head?_chain] at first
      cases first
      exact ⟨behind, tells_source behind⟩

/-- A chain ends with an error that has no source. -/
theorem exists_root (failure : Failure) :
    ∃ earlier root, chain failure = earlier ++ [root] ∧ root.source? = none := by
  induction failure using source_induction with
  | root failure root => exact ⟨[], failure, chain_of_none root, root⟩
  | step failure source behind ih =>
      obtain ⟨earlier, root, split, last⟩ := ih
      exact ⟨failure :: earlier, root, by rw [chain_of_some behind, split, List.cons_append], last⟩

/-- All errors of a chain tell the last one. -/
theorem tells_of_split {earlier : List Failure} {root : Failure}
    (split : chain failure = earlier ++ [root]) : ∀ error ∈ earlier, error.Tells root := by
  have told : (chain failure).Pairwise Tells :=
    ((isChain_chain failure).imp fun _ _ link => link.2).pairwise
  rw [split] at told
  exact fun error member => (List.pairwise_append.mp told).2.2 error member root (by simp)

/-- An error with a source comes before the last one of its chain. -/
theorem mem_of_split {earlier : List Failure} {root : Failure}
    (split : chain failure = earlier ++ [root]) (behind : failure.source? = some source) :
    failure ∈ earlier := by
  rw [chain_of_some behind] at split
  cases earlier with
  | nil =>
      have longer := head?_chain source
      rw [(List.cons.inj split).2] at longer
      cases longer
  | cons first others =>
      rw [(List.cons.inj split).1]
      exact List.mem_cons_self

end Failure

namespace Node

variable {ν : Type}

/-- An event of a run was fired by one of its calls. -/
theorem exists_call_of_mem_events {node : Node ν} {calls : List Call} {event : Event}
    (fired : event ∈ node.events calls) :
    ∃ before call after, calls = before ++ call :: after ∧
      (node.run before).event? call = some event := by
  induction calls using List.reverseRecOn with
  | nil => cases fired
  | append_singleton calls call ih =>
      rw [events_concat, List.mem_append, Option.mem_toList] at fired
      rcases fired with earlier | last
      · obtain ⟨before, other, after, rfl, told⟩ := ih earlier
        exact ⟨before, other, after ++ [call], by simp, told⟩
      · exact ⟨calls, call, [], rfl, last⟩

/-- A failed refresh is announced with the message of its error. -/
theorem outcome_of_updateFailed {node : Node ν} {call : Call} {time : Timestamp} {height : Height}
    {cause : String} (told : node.event? call = some (.updateFailed time height cause)) :
    ∃ error, node.hushed.outcome call = .error (.update error) ∧ cause = error.message := by
  cases call with
  | update signals now height' =>
      rw [outcome_hushed_update]
      simp only [event?] at told
      cases ended : Cache.prepared node.cache.config (node.world signals now) height' with
      | error error =>
          rw [ended] at told
          cases told
          exact ⟨error, rfl, rfl⟩
      | _ => rw [ended] at told; cases told
  | override now name format value =>
      simp only [event?] at told
      cases encoded : format.encode value <;> rw [encoded] at told <;> cases told
  | _ => cases told

end Node

/-- The line of a failed refresh ends with its cause. -/
theorem Event.text_endsIn (time : Timestamp) (height : Height) (cause : String) :
    EndsIn (Event.updateFailed time height cause).text cause := by
  rw [text_eq, written_updateFailed]
  simp only [← String.append_assoc]
  exact .append_append _ _ (by decide) cause

namespace Failure

/-- **Messages never lose their cause.** The chain of an error begins with the error and goes from
each error to its source until there is none. On the way every message ends with the message of
the source, after words of its own, so that all of them end with that of the last error. In any run
of calls, an event of a failed refresh comes from a call that fails, and both its cause and the line
that it is logged as end with the message of the last error behind this failure. -/
theorem message_of_chain {ν : Type} (failure : Failure) (node : Node ν) (calls : List Call) :
    (chain failure).head? = some failure ∧
    (chain failure).IsChain (fun error source =>
      error.source? = some source ∧ error.Tells source) ∧
    (∃ earlier root, chain failure = earlier ++ [root] ∧ root.source? = none ∧
      ∀ error ∈ earlier, error.Tells root) ∧
    ∀ time height cause, .updateFailed time height cause ∈ node.events calls →
      ∃ before call after failed earlier root, calls = before ++ call :: after ∧
        (node.run before).hushed.outcome call = .error failed ∧ cause = failed.message ∧
        chain failed = earlier ++ [root] ∧ root.source? = none ∧ EndsIn cause root.message ∧
        EndsIn (Event.updateFailed time height cause).text root.message := by
  refine ⟨head?_chain failure, isChain_chain failure, ?_, ?_⟩
  · obtain ⟨earlier, root, split, last⟩ := exists_root failure
    exact ⟨earlier, root, split, last, tells_of_split split⟩
  · intro time height cause fired
    obtain ⟨before, call, after, made, told⟩ := Node.exists_call_of_mem_events fired
    obtain ⟨error, failed, rfl⟩ := Node.outcome_of_updateFailed told
    obtain ⟨source, behind⟩ := exists_source_of_update error
    obtain ⟨earlier, root, split, last⟩ := exists_root (update error)
    have shown : EndsIn error.message root.message :=
      tells_of_split split _ (mem_of_split split behind)
    exact ⟨before, call, after, update error, earlier, root, made, failed, rfl, split, last, shown,
      (Event.text_endsIn time height error.message).trans shown⟩

end Failure

end ChainVariables
