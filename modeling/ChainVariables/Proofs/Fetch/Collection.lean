import Mathlib.Data.List.Forall2
import ChainVariables.Fetch.Schedule
import ChainVariables.Proofs.SortedMap.Entries

/-! # What a fetch collects

Whatever order its reads act in, a fetch that succeeds has received the value of
every request, and holds the values in the order of their arrival
(`ChainVariables.Progress.arrivals_of_ok`). If the requests have different names
the result is therefore the same for all orders: every name with the bytes read
at its address (`ChainVariables.get?_of_fetch_ok`). When every read answers and
every answer arrives (`ChainVariables.AllReport`) the fetch does come to an end,
and it fails only with what a store answered (`ChainVariables.fetch_of_allReport`).
-/

namespace ChainVariables

/-- The signal by which a read that answers is reported. -/
inductive Reports : Request × Answer → Signal → Prop where
  | value (request : Request) (bytes : Bytes) :
      Reports (request, .value bytes) (.value request bytes)
  | fault (request : Request) (error : StoreError) :
      Reports (request, .fault error) (.fault request error)

/-- Every read answers, and every answer arrives, in some order. -/
def AllReport (reads : List (Request × Answer)) (signals : List Signal) : Prop :=
  ∃ order, order.Perm reads ∧ List.Forall₂ Reports order signals

/-- A read can be taken out of its place in any order of the reads. -/
theorem exists_split_of_perm {α : Type} (before : List α) {after order : List α} {read : α}
    (permuted : (before ++ read :: after).Perm order) :
    ∃ before' after', order = before' ++ read :: after' ∧
      (before ++ after).Perm (before' ++ after') := by
  have member : read ∈ order := permuted.subset (by simp)
  obtain ⟨before', after', rfl⟩ := List.append_of_mem member
  have same := (List.perm_middle.symm.trans permuted).trans List.perm_middle
  exact ⟨before', after', rfl, same.cons_inv⟩

/-- Which signals are possible does not depend on the order of the reads. -/
theorem Possible.perm {limited : Prop} {reads reads' : List (Request × Answer)}
    {signals : List Signal} (possible : Possible limited reads signals)
    (permuted : reads.Perm reads') : Possible limited reads' signals := by
  induction possible generalizing reads' with
  | pause reads => exact .pause reads'
  | @value before after request bytes later _ ih =>
      obtain ⟨before', after', rfl, remaining⟩ := exists_split_of_perm _ permuted
      exact .value (ih remaining)
  | @fault before after request error later _ ih =>
      obtain ⟨before', after', rfl, remaining⟩ := exists_split_of_perm _ permuted
      exact .fault (ih remaining)
  | @crash before after request message later _ ih =>
      obtain ⟨before', after', rfl, remaining⟩ := exists_split_of_perm _ permuted
      exact .crash (ih remaining)
  | expired reads allowed => exact .expired reads' allowed
  | disconnected =>
      rw [List.nil_perm.mp permuted]
      exact .disconnected

/-- What can be met without a deadline can be met with one. -/
theorem Possible.mono {limited limited' : Prop} {reads : List (Request × Answer)}
    {signals : List Signal} (possible : Possible limited reads signals)
    (allowed : limited → limited') : Possible limited' reads signals := by
  induction possible with
  | pause reads => exact .pause reads
  | value _ ih => exact .value ih
  | fault _ ih => exact .fault ih
  | crash _ ih => exact .crash ih
  | expired reads holds => exact .expired reads (allowed holds)
  | disconnected => exact .disconnected

/-- An order in which all answers arrive is one of those a fetch can meet. -/
theorem AllReport.possible {limited : Prop} {reads : List (Request × Answer)}
    {signals : List Signal} (reported : AllReport reads signals) :
    Possible limited reads signals := by
  obtain ⟨order, permuted, reports⟩ := reported
  induction reports generalizing reads with
  | nil => exact .pause reads
  | @cons read signal order signals report reports ih =>
      obtain ⟨before, after, rfl, remaining⟩ := exists_split_of_perm [] permuted
      cases report with
      | value request bytes => exact .value (ih remaining)
      | fault request error => exact .fault (ih remaining)

namespace Progress

theorem after_of_lt {expected received : Nat} (values : SortedMap String Bytes)
    (missing : received < expected) : after expected received values = collecting received values :=
  if_pos missing

theorem after_of_ge {expected received : Nat} (values : SortedMap String Bytes)
    (full : expected ≤ received) : after expected received values = settled (.ok values) :=
  if_neg (Nat.not_lt.mpr full)

/-- The values that arrived, in order, put into a map. -/
def collect (arrivals : List (Request × Bytes)) (values : SortedMap String Bytes) :
    SortedMap String Bytes :=
  arrivals.foldl (fun values arrival => values.insert arrival.1.name arrival.2) values

theorem collect_empty (arrivals : List (Request × Bytes)) :
    collect arrivals .empty = .ofList (arrivals.map fun arrival => (arrival.1.name, arrival.2)) := by
  unfold collect SortedMap.ofList
  rw [List.foldl_map]

/-- What a success tells of the signals so far: they begin with one value for every read. -/
structure Arrived (expected received : Nat) (reads : List (Request × Answer))
    (signals : List Signal) (arrivals : List (Request × Bytes)) : Prop where
  first : ∃ rest, signals = (arrivals.map fun arrival => .value arrival.1 arrival.2) ++ rest
  all : (arrivals.map fun arrival => (arrival.1, Answer.value arrival.2)).Perm reads
  enough : received + arrivals.length = expected

/-- A fetch that wants nothing more had nothing outstanding. -/
theorem arrived_of_ge {expected received : Nat} {reads : List (Request × Answer)}
    (signals : List Signal) (bounded : received + reads.length ≤ expected)
    (full : expected ≤ received) : Arrived expected received reads signals [] := by
  have none : reads = [] := List.eq_nil_of_length_eq_zero (by omega)
  subst none
  refine ⟨⟨signals, rfl⟩, List.Perm.refl _, ?_⟩
  simp only [List.length_nil] at bounded ⊢
  omega

theorem arrivals_of_full {expected received : Nat} {limit : Duration}
    {reads : List (Request × Answer)} {signals : List Signal}
    {values final : SortedMap String Bytes} (bounded : received + reads.length ≤ expected)
    (full : expected ≤ received)
    (ok : (run expected limit (after expected received values) signals).1 =
      settled (.ok final)) :
    ∃ arrivals, Arrived expected received reads signals arrivals ∧
      final = collect arrivals values := by
  rw [after_of_ge values full, run_settled] at ok
  cases ok
  exact ⟨[], arrived_of_ge _ bounded full, rfl⟩

/-- A fetch that succeeds has received one value for every request, and no read has crashed. -/
theorem arrivals_of_ok {limited : Prop} {expected : Nat} {limit : Duration}
    {reads : List (Request × Answer)} {signals : List Signal}
    (possible : Possible limited reads signals) {received : Nat}
    {values final : SortedMap String Bytes} (bounded : received + reads.length ≤ expected)
    (ok : (run expected limit (after expected received values) signals).1 =
      settled (.ok final)) :
    ∃ arrivals, Arrived expected received reads signals arrivals ∧
      final = collect arrivals values := by
  induction possible generalizing received values with
  | pause reads =>
      by_cases missing : received < expected
      · simp [after_of_lt values missing, run] at ok
      · have full : expected ≤ received := Nat.le_of_not_lt missing
        exact arrivals_of_full bounded full ok
  | @value before after request bytes later possible ih =>
      simp only [List.length_append, List.length_cons] at bounded
      have missing : received < expected := by omega
      rw [after_of_lt values missing] at ok
      have later_ok : (run expected limit (Progress.after expected (received + 1)
          (values.insert request.name bytes)) later).1 = settled (.ok final) := ok
      obtain ⟨arrivals, arrived, rfl⟩ := ih (by rw [List.length_append]; omega) later_ok
      obtain ⟨⟨rest, split⟩, all, enough⟩ := arrived
      refine ⟨(request, bytes) :: arrivals, ⟨⟨rest, ?_⟩, ?_, ?_⟩, rfl⟩
      · rw [split]
        rfl
      · exact (all.cons _).trans List.perm_middle.symm
      · rw [List.length_cons]
        omega
  | @fault before after request error later possible ih =>
      simp only [List.length_append, List.length_cons] at bounded
      have missing : received < expected := by omega
      rw [after_of_lt values missing] at ok
      simp [run, step, run_settled] at ok
  | @crash before after request message later possible ih =>
      simp only [List.length_append, List.length_cons] at bounded
      obtain ⟨arrivals, arrived, rfl⟩ := ih (by rw [List.length_append]; omega) ok
      -- a crashed read is never counted, so the fetch is one value short
      have counted := arrived.all.length_eq
      have enough := arrived.enough
      rw [List.length_map, List.length_append] at counted
      omega
  | expired reads allowed =>
      by_cases missing : received < expected
      · simp [after_of_lt values missing, run, step] at ok
      · have full : expected ≤ received := Nat.le_of_not_lt missing
        exact arrivals_of_full bounded full ok
  | disconnected =>
      by_cases missing : received < expected
      · simp [after_of_lt values missing, run, step] at ok
      · have full : expected ≤ received := Nat.le_of_not_lt missing
        exact arrivals_of_full bounded full ok

/-- When all answers arrive the fetch ends, and an error of it is one of the answers. -/
theorem settles_of_reports {expected : Nat} (limit : Duration) {order : List (Request × Answer)}
    {signals : List Signal} (reports : List.Forall₂ Reports order signals) (received : Nat)
    (values : SortedMap String Bytes) (enough : received + order.length = expected) :
    ∃ result, (run expected limit (after expected received values) signals).1 = settled result ∧
      ∀ error, result = .error error → ∃ request source, (request, .fault source) ∈ order ∧
        error = .unavailable request.name request.address source := by
  induction reports generalizing received values with
  | nil =>
      simp only [List.length_nil, Nat.add_zero] at enough
      refine ⟨.ok values, ?_, by rintro error ⟨⟩⟩
      rw [after_of_ge values (Nat.le_of_eq enough.symm)]
      rfl
  | @cons read signal order signals report reports ih =>
      rw [List.length_cons] at enough
      rw [after_of_lt values (by omega)]
      cases report with
      | value request bytes =>
          obtain ⟨result, settles, faulty⟩ := ih (received + 1)
            (values.insert request.name bytes) (by omega)
          refine ⟨result, settles, ?_⟩
          intro error failed
          obtain ⟨other, source, member, rfl⟩ := faulty error failed
          exact ⟨other, source, List.mem_cons_of_mem _ member, rfl⟩
      | fault request source =>
          refine ⟨.error (.unavailable request.name request.address source), ?_, ?_⟩
          · simp [run, step, run_settled]
          · rintro error ⟨⟩
            exact ⟨request, source, List.mem_cons_self, rfl⟩

theorem outcome_eq_ok {progress : Progress} {values : SortedMap String Bytes} :
    progress.outcome = .ok values ↔ progress = settled (.ok values) := by
  cases progress with
  | collecting received held => simp [outcome]
  | settled result => cases result <;> simp [outcome, Outcome.ofExcept]

end Progress

variable {read : Address → Answer} {requests : List Request} {signals : List Signal}

/-- The reads of a fetch, with what each of them comes to. -/
def readsOf (read : Address → Answer) (requests : List Request) : List (Request × Answer) :=
  requests.map fun request => (request, read request.address)

theorem map_fst_readsOf (read : Address → Answer) (requests : List Request) :
    (readsOf read requests).map Prod.fst = requests := by
  simp [readsOf, Function.comp_def]

theorem mem_readsOf {request : Request} {answer : Answer} :
    (request, answer) ∈ readsOf read requests ↔
      request ∈ requests ∧ read request.address = answer := by
  simp only [readsOf, List.mem_map, Prod.mk.injEq]
  refine ⟨?_, ?_⟩
  · intro listed
    obtain ⟨other, member, rfl, found⟩ := listed
    exact ⟨member, found⟩
  · intro requested
    obtain ⟨member, found⟩ := requested
    exact ⟨request, member, rfl, found⟩

/-- **What a successful fetch holds.** Every read gave a value, and every name is mapped to the
bytes read at the address requested for it. -/
theorem get?_of_fetch_ok {limited : Prop} {limit : Duration} {values : SortedMap String Bytes}
    (distinct : (requests.map (·.name)).Nodup)
    (possible : Possible limited (readsOf read requests) signals)
    (fetched : (fetch requests limit signals).1 = .ok values) :
    (∀ request ∈ requests, ∃ bytes, read request.address = .value bytes) ∧
      ∀ name bytes, values.get? name = some bytes ↔
        ∃ request ∈ requests, request.name = name ∧ read request.address = .value bytes := by
  have settled := Progress.outcome_eq_ok.mp fetched
  have bounded : 0 + (readsOf read requests).length ≤ requests.length := by simp [readsOf]
  obtain ⟨arrivals, arrived, rfl⟩ := Progress.arrivals_of_ok possible bounded settled
  have member {request : Request} {bytes : Bytes} :
      (request, bytes) ∈ arrivals ↔ request ∈ requests ∧ read request.address = .value bytes := by
    have reading : (request, Answer.value bytes) ∈ readsOf read requests ↔ _ := mem_readsOf
    rw [← reading, ← arrived.all.mem_iff]
    simp
  have names : (arrivals.map fun arrival => arrival.1.name).Perm (requests.map (·.name)) := by
    have mapped := arrived.all.map fun read => read.1.name
    simpa [readsOf, Function.comp_def] using mapped
  refine ⟨?_, ?_⟩
  · intro request requested
    have reading : (request, read request.address) ∈ readsOf read requests :=
      mem_readsOf.mpr ⟨requested, rfl⟩
    rw [← arrived.all.mem_iff, List.mem_map] at reading
    obtain ⟨arrival, _, same⟩ := reading
    exact ⟨arrival.2, (congrArg Prod.snd same).symm⟩
  · intro name bytes
    rw [Progress.collect_empty, SortedMap.get?_ofList_eq_some_iff]
    · simp only [List.mem_map, Prod.mk.injEq]
      refine ⟨?_, ?_⟩
      · intro arrived
        obtain ⟨⟨request, held⟩, arrival, rfl, rfl⟩ := arrived
        exact ⟨request, (member.mp arrival).1, rfl, (member.mp arrival).2⟩
      · intro answered
        obtain ⟨request, requested, rfl, found⟩ := answered
        exact ⟨(request, bytes), member.mpr ⟨requested, found⟩, rfl, rfl⟩
    · rw [List.map_map]
      exact (names.nodup_iff).mpr distinct

/-- **When every answer arrives** the fetch returns; its error is what the store answered to one
of the requests. -/
theorem fetch_of_allReport (limit : Duration)
    (reported : AllReport (readsOf read requests) signals) :
    (∃ values, (fetch requests limit signals).1 = .ok values) ∨
      ∃ request source, request ∈ requests ∧ read request.address = .fault source ∧
        (fetch requests limit signals).1 =
          .error (.unavailable request.name request.address source) := by
  obtain ⟨order, permuted, reports⟩ := reported
  have enough : 0 + order.length = requests.length := by
    rw [permuted.length_eq]
    simp [readsOf]
  obtain ⟨result, settles, faulty⟩ :=
    Progress.settles_of_reports limit reports 0 .empty enough
  have ended : (fetch requests limit signals).1 = .ofExcept result := by
    change (Progress.run _ limit (.after _ 0 .empty) signals).1.outcome = _
    rw [settles]
    rfl
  cases result with
  | ok values => exact .inl ⟨values, ended⟩
  | error error =>
      obtain ⟨request, source, member, rfl⟩ := faulty error rfl
      obtain ⟨requested, found⟩ := mem_readsOf.mp (permuted.mem_iff.mp member)
      exact .inr ⟨request, source, requested, found, ended⟩

end ChainVariables
