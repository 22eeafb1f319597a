import Mathlib.Data.List.Dedup
import ChainVariables.Proofs.Cache.World
import ChainVariables.Proofs.Splits

/-! # The order of arrival

Values are counted as they arrive, and of several for one name the last is kept.
A fetch that receives a value for every request therefore succeeds with the last
value of each requested name (`ChainVariables.fetch_of_arrivals`): the order of
arrival shows only where requests of one name receive different values. The
requests of a directory have different names, so there it never shows.
-/

namespace ChainVariables

/-- A request and the value that its read gave. -/
abbrev Arrival := Request × Bytes

namespace Arrival

/-- What the collector meets when the value arrives. -/
def signal (arrival : Arrival) : Signal := .value arrival.1 arrival.2

/-- The read that gave the value. -/
def read (arrival : Arrival) : Request × Answer := (arrival.1, .value arrival.2)

/-- The value is the last one that arrived for a name. -/
def IsLast (order : List Arrival) (name : String) (bytes : Bytes) : Prop :=
  ∃ earlier request later, order = earlier ++ (request, bytes) :: later ∧ request.name = name ∧
    ∀ other ∈ later, other.1.name ≠ name

theorem isLast_concat (order : List Arrival) (arrival : Arrival) (name : String) (bytes : Bytes) :
    IsLast (order ++ [arrival]) name bytes ↔
      if arrival.1.name = name then arrival.2 = bytes else IsLast order name bytes := by
  refine ⟨?_, ?_⟩
  · intro last
    obtain ⟨earlier, request, later, split, named, none⟩ := last
    rcases split_concat split with ⟨rfl, rfl, rfl⟩ | ⟨others, rfl, rfl⟩
    · rw [if_pos named]
    · have different : arrival.1.name ≠ name := none arrival (by simp)
      rw [if_neg different]
      exact ⟨earlier, request, others, rfl, named,
        fun other member => none other (List.mem_append_left _ member)⟩
  · intro last
    by_cases named : arrival.1.name = name
    · rw [if_pos named] at last
      exact ⟨order, arrival.1, [], by rw [← last], named, nofun⟩
    · rw [if_neg named] at last
      obtain ⟨earlier, request, later, rfl, same, none⟩ := last
      refine ⟨earlier, request, later ++ [arrival], by simp, same, ?_⟩
      intro other member
      rcases List.mem_append.mp member with inside | final
      · exact none other inside
      · rw [List.mem_singleton.mp final]
        exact named

/-- A name has a last value exactly if it has one at all. -/
theorem exists_isLast_iff (order : List Arrival) (name : String) :
    (∃ bytes, IsLast order name bytes) ↔ name ∈ order.map (·.1.name) := by
  induction order using List.reverseRecOn with
  | nil => simp [IsLast]
  | append_singleton order arrival ih =>
      simp only [isLast_concat, List.map_append, List.map_singleton, List.mem_append,
        List.mem_singleton, ← ih]
      by_cases named : arrival.1.name = name
      · simp [named]
      · simp [named, Ne.symm named]

theorem IsLast.mem {order : List Arrival} {name : String} {bytes : Bytes}
    (last : IsLast order name bytes) :
    ∃ request, request.name = name ∧ (request, bytes) ∈ order := by
  obtain ⟨earlier, request, later, rfl, named, _⟩ := last
  exact ⟨request, named, by simp⟩

/-- Requests of one name receive one value. -/
def Consistent (arrivals : List Arrival) : Prop :=
  ∀ one ∈ arrivals, ∀ other ∈ arrivals, one.1.name = other.1.name → one.2 = other.2

theorem Consistent.of_nodup {arrivals : List Arrival}
    (distinct : (arrivals.map (·.1.name)).Nodup) : Consistent arrivals := by
  intro one inside other inside' named
  have same : one = other := List.inj_on_of_nodup_map distinct inside inside' named
  rw [same]

/-- Where requests of one name receive one value, that value is the last one. -/
theorem Consistent.isLast_iff {arrivals order : List Arrival} (consistent : Consistent arrivals)
    (permuted : order.Perm arrivals) {name : String} {bytes : Bytes} :
    IsLast order name bytes ↔ ∃ request, request.name = name ∧ (request, bytes) ∈ arrivals := by
  refine ⟨?_, ?_⟩
  · intro last
    obtain ⟨request, named, member⟩ := last.mem
    exact ⟨request, named, permuted.mem_iff.mp member⟩
  · intro arrived
    obtain ⟨request, named, member⟩ := arrived
    have listed : name ∈ order.map (·.1.name) :=
      List.mem_map.mpr ⟨(request, bytes), permuted.mem_iff.mpr member, named⟩
    obtain ⟨kept, last⟩ := (exists_isLast_iff order name).mpr listed
    obtain ⟨request', named', member'⟩ := last.mem
    have same : bytes = kept := consistent (request, bytes) member (request', kept)
      (permuted.mem_iff.mp member') (named.trans named'.symm)
    rw [same]
    exact last

end Arrival

namespace Progress

/-! ## The map of the values -/

theorem collect_concat (order : List Arrival) (arrival : Arrival)
    (values : SortedMap String Bytes) :
    collect (order ++ [arrival]) values =
      (collect order values).insert arrival.1.name arrival.2 := by
  unfold collect
  rw [List.foldl_append]
  rfl

/-- The last value of each name is kept. -/
theorem get?_collect_iff (order : List Arrival) {name : String} {bytes : Bytes} :
    (collect order .empty).get? name = some bytes ↔ Arrival.IsLast order name bytes := by
  induction order using List.reverseRecOn with
  | nil => simp [collect, Arrival.IsLast]
  | append_singleton order arrival ih =>
      rw [collect_concat, SortedMap.get?_insert, Arrival.isLast_concat]
      by_cases named : arrival.1.name = name
      · have same : ByteKey.compare name arrival.1.name = .eq :=
          ByteKey.compare_eq_iff.mpr named.symm
        rw [if_pos same, if_pos named, Option.some.injEq]
      · have different : ¬ ByteKey.compare name arrival.1.name = .eq :=
          fun same => named (ByteKey.compare_eq_iff.mp same).symm
        rw [if_neg different, if_neg named, ih]

theorem contains_collect_iff (order : List Arrival) {name : String} :
    (collect order .empty).contains name = true ↔ name ∈ order.map (·.1.name) := by
  rw [SortedMap.contains, Option.isSome_iff_exists, ← Arrival.exists_isLast_iff]
  simp only [get?_collect_iff]

/-- The map has as many entries as there are names. -/
theorem size_collect (order : List Arrival) :
    (collect order .empty).size = (order.map (·.1.name)).dedup.length := by
  have members (name : String) :
      name ∈ (collect order .empty).keys ↔ name ∈ (order.map (·.1.name)).dedup := by
    rw [List.mem_dedup, ← contains_collect_iff, SortedMap.mem_keys_iff]
  have permuted := (List.perm_ext_iff_of_nodup (SortedMap.keys_nodup _) (List.nodup_dedup _)).mpr
    members
  rw [← permuted.length_eq, SortedMap.keys, List.length_map]
  rfl

/-- Where requests of one name receive one value, the order of arrival does not matter. -/
theorem collect_eq_of_consistent {arrivals order order' : List Arrival}
    (consistent : Arrival.Consistent arrivals) (permuted : order.Perm arrivals)
    (permuted' : order'.Perm arrivals) : collect order .empty = collect order' .empty := by
  apply SortedMap.ext_get?
  intro name
  apply Option.ext
  intro bytes
  rw [get?_collect_iff, get?_collect_iff, consistent.isLast_iff permuted,
    consistent.isLast_iff permuted']

/-- Where the requests have different names, every value that arrived is kept. -/
theorem get?_collect_of_mem {arrivals order : List Arrival}
    (distinct : (arrivals.map (·.1.name)).Nodup) (permuted : order.Perm arrivals)
    {arrival : Arrival} (member : arrival ∈ arrivals) :
    (collect order .empty).get? arrival.1.name = some arrival.2 := by
  have consistent := Arrival.Consistent.of_nodup distinct
  rw [get?_collect_iff, consistent.isLast_iff permuted]
  exact ⟨arrival.1, rfl, member⟩

theorem size_collect_of_nodup {arrivals order : List Arrival}
    (distinct : (arrivals.map (·.1.name)).Nodup) (permuted : order.Perm arrivals) :
    (collect order .empty).size = arrivals.length := by
  have ordered : (order.map (·.1.name)).Nodup :=
    (permuted.map (·.1.name)).nodup_iff.mpr distinct
  rw [size_collect, ordered.dedup, List.length_map, permuted.length_eq]

/-! ## The run of the collector -/

/-- As long as values arrive they are counted and collected. -/
theorem run_arrivals {expected : Nat} (limit : Duration) (arrivals : List Arrival)
    {received : Nat} (values : SortedMap String Bytes)
    (fits : received + arrivals.length ≤ expected) :
    (run expected limit (after expected received values) (arrivals.map Arrival.signal)).1 =
      after expected (received + arrivals.length) (collect arrivals values) := by
  induction arrivals generalizing received values with
  | nil => rfl
  | cons arrival arrivals ih =>
      rw [List.length_cons] at fits ⊢
      have missing : received < expected := by omega
      have counted := ih (values.insert arrival.1.name arrival.2)
        (show received + 1 + arrivals.length ≤ expected by omega)
      rw [Nat.add_assoc, Nat.add_comm 1] at counted
      rw [after_of_lt values missing]
      exact counted

end Progress

/-- What a fetch comes to after so many values is decided by what it meets next. -/
theorem fetch_arrivals_append {requests : List Request} (limit : Duration)
    {arrivals : List Arrival} (later : List Signal) (fits : arrivals.length ≤ requests.length) :
    (fetch requests limit (arrivals.map Arrival.signal ++ later)).1 =
      (Progress.run requests.length limit (.after requests.length arrivals.length
        (Progress.collect arrivals .empty)) later).1.outcome := by
  have counted := Progress.run_arrivals limit arrivals .empty
    (show 0 + arrivals.length ≤ requests.length by omega)
  rw [Nat.zero_add] at counted
  simp only [fetch, Progress.start, Progress.run_append, counted]

/-- Once all values are there the fetch has succeeded, whatever comes after. -/
theorem fetch_of_all_arrivals (limit : Duration) {reads order : List Arrival}
    (permuted : order.Perm reads) (later : List Signal) :
    (fetch (reads.map Prod.fst) limit (order.map Arrival.signal ++ later)).1 =
      .ok (Progress.collect order .empty) := by
  have all : order.length = (reads.map Prod.fst).length := by
    rw [permuted.length_eq, List.length_map]
  rw [fetch_arrivals_append limit later (Nat.le_of_eq all),
    Progress.after_of_ge _ (Nat.le_of_eq all.symm), Progress.run_settled]
  rfl

/-- The names of a directory's requests are different. -/
theorem Arrival.nodup_of_requests {reads : List Arrival} {directory : Directory} {height : Height}
    (requested : reads.map Prod.fst = directory.requests height) :
    (reads.map (·.1.name)).Nodup := by
  have names := directory.requests_nodup height
  rwa [← requested, List.map_map] at names

/-- **The map of a fetch.** Let every read give a value, and let the values arrive in any order.
The fetch succeeds, whatever else is met later; its map has exactly the requested names, each with
the last value that arrived for it. If requests of one name receive one value, the order makes no
difference. And for the requests of a directory, whose names are different, there is one entry for
each request: the name, with the value read at the address that the directory resolves. -/
theorem fetch_of_arrivals (limit : Duration) (reads : List Arrival) :
    (∀ (order : List Arrival) (later : List Signal), order.Perm reads → ∃ values,
      (fetch (reads.map Prod.fst) limit (order.map Arrival.signal ++ later)).1 = .ok values ∧
        (∀ name, values.contains name = true ↔ name ∈ reads.map (·.1.name)) ∧
        values.size = (reads.map (·.1.name)).dedup.length ∧
        ∀ name bytes, values.get? name = some bytes ↔ Arrival.IsLast order name bytes) ∧
    (Arrival.Consistent reads → ∀ (order order' : List Arrival) (later later' : List Signal),
      order.Perm reads → order'.Perm reads →
        (fetch (reads.map Prod.fst) limit (order.map Arrival.signal ++ later)).1 =
          (fetch (reads.map Prod.fst) limit (order'.map Arrival.signal ++ later')).1) ∧
    ∀ (directory : Directory) (height : Height),
      reads.map Prod.fst = directory.requests height →
      (reads.map (·.1.name)).Nodup ∧
        ∀ (order : List Arrival) (later : List Signal), order.Perm reads → ∃ values,
        (fetch (reads.map Prod.fst) limit (order.map Arrival.signal ++ later)).1 = .ok values ∧
          values.size = reads.length ∧
          ∀ read ∈ reads, directory.resolve read.1.name height = .ok read.1.address ∧
            values.get? read.1.name = some read.2 := by
  refine ⟨?_, ?_, ?_⟩
  · intro order later permuted
    have names := permuted.map (·.1.name)
    refine ⟨_, fetch_of_all_arrivals limit permuted later, ?_, ?_, ?_⟩
    · intro name
      rw [Progress.contains_collect_iff, names.mem_iff]
    · rw [Progress.size_collect, names.dedup.length_eq]
    · intro name bytes
      exact Progress.get?_collect_iff order
  · intro consistent order order' later later' permuted permuted'
    rw [fetch_of_all_arrivals limit permuted later, fetch_of_all_arrivals limit permuted' later',
      Progress.collect_eq_of_consistent consistent permuted permuted']
  · intro directory height requested
    have distinct := Arrival.nodup_of_requests requested
    refine ⟨distinct, ?_⟩
    intro order later permuted
    refine ⟨_, fetch_of_all_arrivals limit permuted later,
      Progress.size_collect_of_nodup distinct permuted, ?_⟩
    intro read member
    have listed : read.1 ∈ directory.requests height :=
      requested ▸ List.mem_map.mpr ⟨read, member, rfl⟩
    exact ⟨Directory.mem_requests.mp listed,
      Progress.get?_collect_of_mem distinct permuted member⟩

/-- Of two values for one name the one that arrives last is kept, whichever was requested last. -/
example (limit : Duration) :
    (fetch [⟨"fee", ⟨[1], [1]⟩⟩, ⟨"fee", ⟨[1], [2]⟩⟩, ⟨"gas", ⟨[1], [3]⟩⟩] limit
      [.value ⟨"fee", ⟨[1], [2]⟩⟩ [20], .value ⟨"gas", ⟨[1], [3]⟩⟩ [30],
        .value ⟨"fee", ⟨[1], [1]⟩⟩ [10]]).1 =
      .ok (.ofList [("fee", [10]), ("gas", [30])]) := rfl

end ChainVariables
