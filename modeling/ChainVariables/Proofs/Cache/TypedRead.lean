import ChainVariables.Proofs.Cache.Fingerprint
import ChainVariables.Proofs.Codec.Framing
import ChainVariables.Proofs.Codec.Inverse

/-! # What an override is read back as

A cache keeps the bytes of a value and forgets its format. Until it is replaced,
an overridden value is read back in the format it was set in. In another format
without maps it is read back only as a value that has the same bytes, all of
them, and is refused otherwise (`ChainVariables.Node.get_run_of_override`).
-/

namespace ChainVariables

/-! ## Values behind bytes -/

namespace Format

variable {α : Type} {format : Format α}

/-- Without maps, what is accepted is what some value is encoded as. -/
theorem accepts_iff_encode (free : format.MapFree) {bytes : Bytes} :
    format.Accepts bytes ↔ ∃ value, format.encode value = .ok bytes :=
  exists_congr fun _ => ⟨encode_of_decode free, decode_of_encode⟩

/-- Without maps, what is left over is what stands behind the bytes of a value. -/
theorem trailing_iff_encode (free : format.MapFree) {bytes : Bytes} {remaining : Nat} :
    format.decode bytes = .error (.trailing remaining) ↔
      ∃ value front rest, format.encode value = .ok front ∧ bytes = front ++ rest ∧ rest ≠ [] ∧
        rest.length = remaining := by
  rw [decode_eq_trailing_iff]
  refine ⟨?_, ?_⟩
  · rintro ⟨positive, front, ⟨rest, rfl⟩, accepted, _, long⟩
    obtain ⟨value, encoded⟩ := (accepts_iff_encode free).mp accepted
    rw [List.length_append] at long
    have left : rest.length = remaining := by omega
    exact ⟨value, front, rest, encoded, rfl, List.length_pos_iff.mp (left ▸ positive), left⟩
  · rintro ⟨value, front, rest, encoded, rfl, more, rfl⟩
    refine ⟨List.length_pos_iff.mpr more, front, ⟨rest, rfl⟩,
      (accepts_iff_encode free).mpr ⟨value, encoded⟩, ?_, List.length_append.symm⟩
    exact fun whole => more (List.append_right_eq_self.mp whole.symm)

end Format

namespace Snapshot

variable {α : Type} {snapshot : Snapshot} {name : String} {bytes : Bytes}

/-- A variable that is there is read as its bytes decode. -/
theorem get_of_getRaw? (found : snapshot.getRaw? name = some bytes) (format : Format α) :
    snapshot.get format name = (format.decode bytes).mapError (.malformed name) := by
  simp only [get, found]
  cases format.decode bytes <;> rfl

theorem get_eq_ok_iff (found : snapshot.getRaw? name = some bytes) {format : Format α} {value : α} :
    snapshot.get format name = .ok value ↔ format.decode bytes = .ok value := by
  rw [get_of_getRaw? found]
  cases format.decode bytes <;> simp [Except.mapError]

theorem get_eq_malformed_iff (found : snapshot.getRaw? name = some bytes) {format : Format α}
    {source : DecodeError} :
    snapshot.get format name = .error (.malformed name source) ↔
      format.decode bytes = .error source := by
  rw [get_of_getRaw? found]
  cases format.decode bytes <;> simp [Except.mapError]

/-- Typed reads see the bytes of the variable and nothing else. -/
theorem get_congr {other : Snapshot} (same : snapshot.getRaw? name = other.getRaw? name)
    (format : Format α) : snapshot.get format name = other.get format name := by
  rw [get, get, same]

end Snapshot

/-! ## Overrides -/

theorem lastSet?_eq_none {calls : List Call} {name : String}
    (kept : ∀ call ∈ calls, ∀ bytes, call.sets? ≠ some (name, bytes)) :
    lastSet? calls name = none := by
  rw [Option.eq_none_iff_forall_not_mem]
  intro bytes found
  have listed := List.mem_reverse.mp (SortedMap.mem_of_lookup found)
  obtain ⟨call, member, set⟩ := List.mem_filterMap.mp listed
  exact kept call member bytes set

namespace Node

variable {ν α : Type} {node : Node ν} {now : Timestamp} {name : String} {format : Format α}
  {value : α} {bytes : Bytes} {calls : List Call}

theorem getRaw?_step_override (encoded : format.encode value = .ok bytes) (wanted : String) :
    (node.step (.override now name format value)).cache.getRaw? wanted =
      if wanted = name then some bytes else node.cache.getRaw? wanted := by
  have set : (Call.override now name format value).sets? = some (name, bytes) := by
    simp only [Call.sets?, encoded]
  simp only [step, cache_of_override, set]
  by_cases same : wanted = name
  · subst same
    rw [if_pos rfl]
    exact SortedMap.get?_insert_self ..
  · rw [if_neg same]
    exact SortedMap.get?_insert_of_ne _ _ same

/-- **What an override is read back as.** Set a variable to a value that can be encoded, in any
state of the cache, and make any calls after it but refreshes that come through and overrides of
the same variable that can be encoded. Then the variable is read back as that value in its format,
and every other variable as before if it was not overridden since then. In any format without maps
the variable is read as exactly the values that are encoded as the same bytes. If there is none,
the read is refused with the name of the variable. It is refused because of bytes left over exactly
if a value is encoded as the bytes before these. -/
theorem get_run_of_override (node : Node ν) (now : Timestamp) (name : String) (format : Format α)
    (value : α) {bytes : Bytes} (encoded : format.encode value = .ok bytes) (calls : List Call)
    (unrefreshed : (node.step (.override now name format value)).Unrefreshed calls)
    (kept : ∀ call ∈ calls, ∀ bytes, call.sets? ≠ some (name, bytes)) :
    let final := (node.run (.override now name format value :: calls)).cache
    final.getRaw? name = some bytes ∧
    final.get format name = .ok value ∧
    (∀ other, other ≠ name →
      final.getRaw? other = (lastSet? calls other).or (node.cache.getRaw? other) ∧
      (lastSet? calls other = none → ∀ {β : Type} (reader : Format β),
        final.get reader other = node.cache.get reader other)) ∧
    ∀ {β : Type} (reader : Format β), reader.MapFree →
      (∀ result, final.get reader name = .ok result ↔
        reader.encode result = format.encode value) ∧
      ((∀ result, reader.encode result ≠ format.encode value) →
        ∃ source, final.get reader name = .error (.malformed name source)) ∧
      ∀ remaining, final.get reader name = .error (.malformed name (.trailing remaining)) ↔
        ∃ result front rest, reader.encode result = .ok front ∧ bytes = front ++ rest ∧
          rest ≠ [] ∧ rest.length = remaining := by
  intro final
  have raw (wanted : String) : final.getRaw? wanted = (lastSet? calls wanted).or
      (if wanted = name then some bytes else node.cache.getRaw? wanted) := by
    rw [← getRaw?_step_override encoded wanted]
    exact getRaw?_run_of_unrefreshed unrefreshed wanted
  have found : final.getRaw? name = some bytes := by
    rw [raw, lastSet?_eq_none kept, if_pos rfl, Option.none_or]
  refine ⟨found, ?_, ?_, ?_⟩
  · exact (Snapshot.get_eq_ok_iff found).mpr (Format.decode_of_encode encoded)
  · intro other different
    have apart := raw other
    rw [if_neg different] at apart
    refine ⟨apart, fun idle _ reader => ?_⟩
    rw [idle, Option.none_or] at apart
    exact Snapshot.get_congr apart reader
  · intro β reader free
    have inverse (result : β) :
        final.get reader name = .ok result ↔ reader.encode result = format.encode value := by
      rw [encoded]
      exact (Snapshot.get_eq_ok_iff found).trans
        ⟨Format.encode_of_decode free, Format.decode_of_encode⟩
    refine ⟨inverse, ?_, ?_⟩
    · intro foreign
      cases decoded : reader.decode bytes with
      | ok result =>
          exact absurd ((inverse result).mp ((Snapshot.get_eq_ok_iff found).mpr decoded))
            (foreign result)
      | error source => exact ⟨source, (Snapshot.get_eq_malformed_iff found).mpr decoded⟩
    · intro remaining
      exact (Snapshot.get_eq_malformed_iff found).trans (Format.trailing_iff_encode free)

/-- A number of eight bytes is not read as one of four, whatever failed in the meantime. -/
theorem get_run_of_override_widened :
    let calls : List Call :=
      [.update (fun _ => [.expired]) ⟨4⟩ (.mk 6), .override ⟨5⟩ "gas" (.word 1) 9#8]
    let final := (online.run (.override ⟨3⟩ "fee" (.word 8) 7#64 :: calls)).cache
    final.get (.word 8) "fee" = .ok 7#64 ∧
      final.get (.word 4) "fee" = .error (.malformed "fee" (.trailing 4)) := by
  intro calls final
  have late : (online.step (.override ⟨3⟩ "fee" (.word 8) 7#64)).ending
      (.update (fun _ => [.expired]) ⟨4⟩ (.mk 6)) = .error () := rfl
  have unrefreshed : (online.step (.override ⟨3⟩ "fee" (.word 8) 7#64)).Unrefreshed calls :=
    unrefreshed_concat (unrefreshed_concat (unrefreshed_nil _) (idle_of_ending_error late).1)
      nofun
  have kept : ∀ call ∈ calls, ∀ bytes, call.sets? ≠ some ("fee", bytes) := by
    refine List.forall_mem_cons.mpr ⟨nofun, List.forall_mem_cons.mpr ⟨?_, nofun⟩⟩
    intro bytes same
    have named : some "gas" = some "fee" := congrArg (Option.map Prod.fst) same
    exact absurd named (by decide)
  have read := get_run_of_override online ⟨3⟩ "fee" (.word 8) 7#64 rfl calls unrefreshed kept
  refine ⟨read.2.1, ((read.2.2.2 (.word 4) trivial).2.2 4).mpr ?_⟩
  exact ⟨7#32, [7, 0, 0, 0], [0, 0, 0, 0], rfl, rfl, nofun, rfl⟩

end Node

end ChainVariables
