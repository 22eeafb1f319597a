import ChainVariables.Proofs.Cache.Run
import ChainVariables.Proofs.Codec.RoundTrip

/-! # What a digest tells

A digest is taken of the bytes of all values. These bytes are the same for two
caches exactly if the caches agree on every variable, whatever calls led to
them (`ChainVariables.Node.digest_of_runs`). So the digest forgets heights, the
order in which values arrived and the overrides that were replaced, and unless
the hash collides it forgets nothing else.
-/

namespace ChainVariables

namespace Snapshot

theorem digest_of_canonicalBytes {snapshot : Snapshot} {bytes : Bytes}
    (encoded : snapshot.canonicalBytes = .ok bytes) :
    snapshot.digest = .ok (.ofMessage bytes) := by
  rw [digest, encoded]
  rfl

/-- Snapshots that agree on every variable have the same values. -/
theorem values_eq_of_getRaw? {first second : Snapshot}
    (same : ∀ name, first.getRaw? name = second.getRaw? name) : first.values = second.values :=
  SortedMap.ext_get? same

/-- The hashed bytes tell every variable, and nothing but the variables. -/
theorem canonicalBytes_eq_iff {first second : Snapshot} {bytes bytes' : Bytes}
    (encoded : first.canonicalBytes = .ok bytes) (encoded' : second.canonicalBytes = .ok bytes') :
    bytes = bytes' ↔ ∀ name, first.getRaw? name = second.getRaw? name := by
  refine ⟨?_, ?_⟩
  · intro same name
    subst same
    rw [getRaw?, getRaw?, Format.eq_of_encode encoded encoded']
  · intro same
    rw [canonicalBytes, values_eq_of_getRaw? same] at encoded
    cases encoded.symm.trans encoded'
    rfl

theorem digest_eq_of_getRaw? {first second : Snapshot}
    (same : ∀ name, first.getRaw? name = second.getRaw? name) : first.digest = second.digest := by
  rw [digest, digest, canonicalBytes, canonicalBytes, values_eq_of_getRaw? same]

end Snapshot

/-! ## Overrides -/

/-- The value that the last override of a variable gives it. -/
def lastSet? (calls : List Call) (name : String) : Option Bytes :=
  SortedMap.lookup name (calls.filterMap Call.sets?).reverse

theorem get?_overwrite (values : SortedMap String Bytes) (calls : List Call) (name : String) :
    (overwrite values calls).get? name = (lastSet? calls name).or (values.get? name) :=
  SortedMap.get?_foldl_insert values _ name

namespace Node

variable {ν μ : Type}

/-- Until the next refresh, a variable has the value of its last override. -/
theorem getRaw?_run_of_unrefreshed {node : Node ν} {calls : List Call}
    (unrefreshed : node.Unrefreshed calls) (name : String) :
    (node.run calls).cache.getRaw? name = (lastSet? calls name).or (node.cache.getRaw? name) := by
  rw [Cache.getRaw?, snapshot_run_of_unrefreshed unrefreshed]
  exact get?_overwrite _ calls name

/-- **A digest tells the variables.** Take any two caches after any calls. The bytes that their
digests are taken of are the same exactly if the caches agree on every variable. So the digests
are the same whenever all variables are, and if the hash does not collide on these two byte
strings, then caches with the same digest have the same variables with the same values. -/
theorem digest_of_runs (node : Node ν) (node' : Node μ) (calls calls' : List Call)
    {bytes bytes' : Bytes} (encoded : (node.run calls).cache.snapshot.canonicalBytes = .ok bytes)
    (encoded' : (node'.run calls').cache.snapshot.canonicalBytes = .ok bytes') :
    (node.run calls).cache.digest = .ok (.ofMessage bytes) ∧
    (node'.run calls').cache.digest = .ok (.ofMessage bytes') ∧
    (bytes = bytes' ↔ ∀ name,
      (node.run calls).cache.getRaw? name = (node'.run calls').cache.getRaw? name) ∧
    ((∀ name, (node.run calls).cache.getRaw? name = (node'.run calls').cache.getRaw? name) →
      (node.run calls).cache.digest = (node'.run calls').cache.digest) ∧
    ((Sha256.hash bytes = Sha256.hash bytes' → bytes = bytes') →
      (node.run calls).cache.digest = (node'.run calls').cache.digest →
        (node.run calls).cache.snapshot.values = (node'.run calls').cache.snapshot.values) := by
  have hashed : (node.run calls).cache.digest = .ok (.ofMessage bytes) :=
    Snapshot.digest_of_canonicalBytes encoded
  have hashed' : (node'.run calls').cache.digest = .ok (.ofMessage bytes') :=
    Snapshot.digest_of_canonicalBytes encoded'
  have told := Snapshot.canonicalBytes_eq_iff encoded encoded'
  refine ⟨hashed, hashed', told, Snapshot.digest_eq_of_getRaw?, ?_⟩
  intro distinct same
  rw [hashed, hashed', Outcome.ok.injEq] at same
  exact Snapshot.values_eq_of_getRaw? (told.mp (distinct (congrArg Digest.bytes same)))

/-- A cache whose store never answers. -/
def offline : Node Unit := ⟨fun _ => .silent, .create { timeout := ⟨5⟩ } []⟩

/-- A cache over a store with two variables. -/
def online : Node Unit := ⟨World.orderly.answer, .create { timeout := ⟨1000⟩ } []⟩

/-- Values set by hand, one of them twice. -/
def handmade : List Call := [
  .override ⟨0⟩ "gas" (.word 1) 20#8, .override ⟨1⟩ "fee" .bytes [3],
  .override ⟨2⟩ "fee" (.word 2) 10#16]

/-- One refresh whose values arrive in reverse order. -/
def refreshed (height : Height) : List Call := [
  .update (fun requests => requests.reverse.map (World.report World.orderly)) ⟨3⟩ height]

/-- The digest does not tell values set by hand from the same values read from a store. -/
theorem digest_of_handmade :
    (offline.run handmade).cache.state = .empty ∧
      (online.run (refreshed (.mk 6))).cache.state = .ready (.mk 6) ∧
      (offline.run handmade).cache.digest = (online.run (refreshed (.mk 6))).cache.digest := by
  have encoded : (offline.run handmade).cache.snapshot.canonicalBytes =
      .ok [2, 0, 0, 0, 3, 0, 0, 0, 102, 101, 101, 2, 0, 0, 0, 10, 0,
        3, 0, 0, 0, 103, 97, 115, 1, 0, 0, 0, 20] := rfl
  have values : (offline.run handmade).cache.snapshot.values =
      (online.run (refreshed (.mk 6))).cache.snapshot.values := rfl
  have told := digest_of_runs offline online handmade (refreshed (.mk 6)) encoded encoded
  exact ⟨rfl, rfl, told.2.2.2.1 fun name => congrArg (·.get? name) values⟩

end Node

end ChainVariables
