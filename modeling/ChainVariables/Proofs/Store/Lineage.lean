import ChainVariables.Proofs.Splits
import ChainVariables.Proofs.Store.FlatMap

/-! # Where the values of a store come from

Which handles lead to one store, and what it holds, can be told from the calls
alone. Two handles lead to one store if they both follow one handle since some
moment (`ChainVariables.Linked`), and the value at an address is the one that was
last given through any handle of the store, unless a change has touched the
address since (`ChainVariables.Kept`). Every call on the handles is answered
accordingly (`ChainVariables.Pool.answers_run`).
-/

namespace ChainVariables

namespace StoreCall

/-- The handle that led to a store before the call, for a handle that leads to it after. There is
none if the call made the store. -/
def before? : StoreCall → String → Option String
  | .new made, handle => if handle = made then none else some handle
  | .share source target, handle => some (Pool.follows source target handle)
  | .load made path, handle =>
      match MemoryStore.load path with
      | .ok _ => if handle = made then none else some handle
      | .error _ => some handle
  | .change .., handle | .get .., handle | .dump .., handle => some handle

end StoreCall

/-- The handle that led to a store before some calls, for a handle that leads to it after. -/
def ancestor? : List StoreCall → String → Option String
  | [], handle => some handle
  | call :: rest, handle => (ancestor? rest handle).bind call.before?

theorem ancestor?_concat (calls : List StoreCall) (call : StoreCall) (handle : String) :
    ancestor? (calls ++ [call]) handle = (call.before? handle).bind (ancestor? calls) := by
  induction calls with
  | nil =>
      exact (Option.bind_some ..).trans (Option.bind_fun_some _).symm
  | cons first rest ih =>
      rw [List.cons_append, ancestor?, ih, Option.bind_assoc]
      rfl

/-- Two handles follow one handle since some moment. -/
def Linked (calls : List StoreCall) (first second : String) : Prop :=
  ∃ before after origin, calls = before ++ after ∧
    ancestor? after first = some origin ∧ ancestor? after second = some origin

/-- The call gives the store of a handle the value at an address. -/
def Gives (calls : List StoreCall) (handle : String) (address : Address) (value : Bytes) :
    StoreCall → Prop
  | .change changer change => change = .set address value ∧ Linked calls changer handle
  | .load made path =>
      made = handle ∧ ∃ store, MemoryStore.load path = .ok store ∧ store.get? address = some value
  | .new _ | .share .. | .get .. | .dump .. => False

/-- The call replaces or deletes the value at an address in the store of a handle. -/
def Disturbs (calls : List StoreCall) (handle : String) (address : Address) : StoreCall → Prop
  | .change changer change => change.Touches address ∧ Linked calls changer handle
  | .new _ | .share .. | .load .. | .get .. | .dump .. => False

/-- A call gave the value to the store that the handle leads to, and no later call has disturbed
it there. -/
def Kept (calls : List StoreCall) (handle : String) (address : Address) (value : Bytes) : Prop :=
  ∃ before call after owner, calls = before ++ call :: after ∧
    Gives before owner address value call ∧ ancestor? after handle = some owner ∧
    ∀ early next late via, after = early ++ next :: late →
      ancestor? (next :: late) handle = some via →
        ¬ Disturbs (before ++ call :: early) via address next

section Steps

variable {calls : List StoreCall} {call : StoreCall} {first second handle : String}
  {address : Address} {value : Bytes}

/-! ## What the last call does -/

theorem Linked.refl (calls : List StoreCall) (handle : String) : Linked calls handle handle :=
  ⟨calls, [], handle, (List.append_nil calls).symm, rfl, rfl⟩

theorem linked_concat :
    Linked (calls ++ [call]) first second ↔ first = second ∨
      ∃ former latter, call.before? first = some former ∧ call.before? second = some latter ∧
        Linked calls former latter := by
  refine ⟨?_, ?_⟩
  · intro linked
    obtain ⟨before, after, origin, split, one, two⟩ := linked
    rcases List.eq_nil_or_concat after with rfl | ⟨after, last, rfl⟩
    · cases one
      cases two
      exact .inl rfl
    · rw [List.concat_eq_append, ← List.append_assoc] at split
      obtain ⟨rfl, same⟩ := List.append_inj' split rfl
      cases same
      rw [List.concat_eq_append, ancestor?_concat] at one two
      obtain ⟨former, led, one⟩ := Option.bind_eq_some_iff.mp one
      obtain ⟨latter, led', two⟩ := Option.bind_eq_some_iff.mp two
      exact .inr ⟨former, latter, led, led', before, after, origin, rfl, one, two⟩
  · intro followed
    rcases followed with rfl | ⟨former, latter, led, led', linked⟩
    · exact .refl _ first
    · obtain ⟨before, after, origin, rfl, one, two⟩ := linked
      refine ⟨before, after ++ [call], origin, List.append_assoc .., ?_, ?_⟩
      · rw [ancestor?_concat, led, Option.bind_some, one]
      · rw [ancestor?_concat, led', Option.bind_some, two]

theorem kept_concat :
    Kept (calls ++ [call]) handle address value ↔ Gives calls handle address value call ∨
      ∃ via, call.before? handle = some via ∧ ¬ Disturbs calls via address call ∧
        Kept calls via address value := by
  refine ⟨?_, ?_⟩
  · intro kept
    obtain ⟨before, giver, after, owner, split, gives, led, spared⟩ := kept
    rcases split_concat split with ⟨rfl, rfl, rfl⟩ | ⟨after, rfl, rfl⟩
    · cases led
      exact .inl gives
    · rw [ancestor?_concat] at led
      obtain ⟨via, back, led⟩ := Option.bind_eq_some_iff.mp led
      refine .inr ⟨via, back, ?_, before, giver, after, owner, rfl, gives, led, ?_⟩
      · refine spared after call [] via rfl ?_
        rw [← List.nil_append [call], ancestor?_concat, back]
        rfl
      · intro early next late other later led
        refine spared early next (late ++ [call]) other (by simp [later]) ?_
        rw [← List.cons_append, ancestor?_concat, back, Option.bind_some, led]
  · intro done
    rcases done with gives | ⟨via, back, spared, kept⟩
    · exact ⟨calls, call, [], handle, rfl, gives, rfl, by simp⟩
    · obtain ⟨before, giver, after, owner, rfl, gives, led, rest⟩ := kept
      refine ⟨before, giver, after ++ [call], owner, by simp, gives, ?_, ?_⟩
      · rw [ancestor?_concat, back, Option.bind_some, led]
      · intro early next late other split led
        rcases split_concat split with ⟨rfl, rfl, rfl⟩ | ⟨late, rfl, rfl⟩
        · rw [← List.nil_append [call], ancestor?_concat, back] at led
          cases led
          exact spared
        · rw [← List.cons_append, ancestor?_concat, back, Option.bind_some] at led
          exact rest early next late other rfl led

end Steps

/-! ## Runs -/

theorem FlatPool.linked_perform {flat : FlatPool} (reflexive : ∀ handle, flat.linked handle handle)
    (call : StoreCall) (first second : String) :
    (flat.perform call).linked first second = true ↔ first = second ∨
      ∃ former latter, call.before? first = some former ∧ call.before? second = some latter ∧
        flat.linked former latter = true := by
  have unmoved : flat.linked first second = true ↔
      first = second ∨ flat.linked first second = true :=
    ⟨.inr, fun linked => linked.elim (· ▸ reflexive first) id⟩
  have assigned (made : String) (values : Address → Option Bytes) :
      (flat.assign made values).linked first second = true ↔ first = second ∨
        ∃ former latter, (if first = made then none else some first) = some former ∧
          (if second = made then none else some second) = some latter ∧
            flat.linked former latter = true := by
    simp only [FlatPool.assign]
    by_cases one : first = made <;> by_cases two : second = made
    · simp [one, two]
    · simp [one, two]
    · simp [one, two]
    · simpa [one, two] using unmoved
  cases call with
  | new made => exact assigned made _
  | share source target =>
      refine ⟨fun linked => .inr ⟨_, _, rfl, rfl, linked⟩, ?_⟩
      intro followed
      rcases followed with rfl | ⟨_, _, ⟨⟩, ⟨⟩, linked⟩
      · exact reflexive _
      · exact linked
  | load made path =>
      simp only [FlatPool.perform, StoreCall.before?]
      cases MemoryStore.load path with
      | ok store => exact assigned made _
      | error error => simpa using unmoved
  | change changer change => simpa [FlatPool.perform, StoreCall.before?] using unmoved
  | get handle address => simpa [FlatPool.perform, StoreCall.before?] using unmoved
  | dump handle path => simpa [FlatPool.perform, StoreCall.before?] using unmoved

/-- The handles that lead to the same flat map are those that follow one handle since some
moment. -/
theorem FlatPool.linked_run_iff (calls : List StoreCall) (first second : String) :
    (start.run calls).linked first second = true ↔ Linked calls first second := by
  induction calls using List.reverseRecOn generalizing first second with
  | nil =>
      refine ⟨?_, ?_⟩
      · intro same
        obtain rfl := beq_iff_eq.mp same
        exact .refl [] first
      · intro linked
        obtain ⟨before, after, origin, split, one, two⟩ := linked
        obtain ⟨rfl, rfl⟩ := List.append_eq_nil_iff.mp split.symm
        cases one
        cases two
        exact beq_self_eq_true first
  | append_singleton calls call ih =>
      rw [run_concat, linked_perform fun handle => (ih handle handle).mpr (.refl calls handle),
        linked_concat]
      simp only [ih]

namespace Pool

/-- Handles of one store show the same values. -/
theorem Shows.values_eq {pool : Pool} {flat : FlatPool} (shows : pool.Shows flat)
    {first second : String} (linked : flat.linked first second = true) :
    flat.values first = flat.values second := by
  rw [← shows.values, ← shows.values, store_eq_of_shares ((shows.linked first second).mp linked)]

end Pool

/-- What a flat map holds is what was kept of what it was given. -/
theorem FlatPool.values_run_iff (calls : List StoreCall) (handle : String) (address : Address)
    (value : Bytes) :
    (start.run calls).values handle address = some value ↔ Kept calls handle address value := by
  induction calls using List.reverseRecOn generalizing handle with
  | nil =>
      refine ⟨nofun, ?_⟩
      intro kept
      obtain ⟨before, call, after, _, split, _⟩ := kept
      exact absurd split.symm (by simp)
  | append_singleton calls call ih =>
      rw [run_concat, kept_concat]
      cases call with
      | new made =>
          by_cases here : handle = made <;>
            simp [perform, assign, Gives, Disturbs, StoreCall.before?, here, ih]
      | share source target => simp [perform, Gives, Disturbs, StoreCall.before?, ih]
      | load made path =>
          cases loaded : MemoryStore.load path with
          | ok store =>
              by_cases here : handle = made
              · simp [perform, assign, Gives, Disturbs, StoreCall.before?, here, loaded]
              · simp [perform, assign, Gives, Disturbs, StoreCall.before?, here, Ne.symm here,
                  loaded, ih]
          | error error => simp [perform, Gives, Disturbs, StoreCall.before?, loaded, ih]
      | change changer change =>
          simp only [perform, Gives, Disturbs, StoreCall.before?, Option.some.injEq,
            exists_eq_left']
          by_cases linked : Linked calls changer handle
          · have reached := (linked_run_iff calls changer handle).mpr linked
            have same := (Pool.shows_run calls).values_eq reached
            simp [reached, linked, MemoryStore.Change.put_eq_some_iff, same, ih]
          · have unreached := mt (linked_run_iff calls changer handle).mp linked
            simp [unreached, linked, ih]
      | get asked place => simp [perform, Gives, Disturbs, StoreCall.before?, ih]
      | dump asked path => simp [perform, Gives, Disturbs, StoreCall.before?, ih]

/-- **A store is a flat map, shared by the handles that lead to it.** After any calls, the next one
is answered as if every handle led to one map from addresses to values: getting tells the value or
that there is none at this very address, deleting tells what getting would have, and a file of the
store gives back the whole map. The handles of one map are those that follow one handle since some
moment; making a store or loading one cuts a handle loose, and loading that fails changes nothing.
The value at an address is the one last given through any handle of the map, unless it was deleted
or cleared through any of them since. A change of one address leaves all others alone, also those
whose namespace and key make up the same bytes together. -/
theorem Pool.answers_run (calls : List StoreCall) :
    (∀ call, (FlatPool.start.run calls).Answers ((empty.run calls).perform call).1 call) ∧
    (∀ first second,
      (FlatPool.start.run calls).linked first second = true ↔ Linked calls first second) ∧
    (∀ handle address value,
      (FlatPool.start.run calls).values handle address = some value ↔
        Kept calls handle address value) ∧
    (∀ handle path error, MemoryStore.load path = .error error →
      (empty.run calls).perform (.load handle path) = (.failed error, empty.run calls)) ∧
    ∀ changer change address, ¬ MemoryStore.Change.Touches change address → ∀ handle,
      (FlatPool.start.run (calls ++ [.change changer change])).values handle address =
        (FlatPool.start.run calls).values handle address := by
  refine ⟨(shows_run calls).answers, FlatPool.linked_run_iff calls, FlatPool.values_run_iff calls,
    ?_, ?_⟩
  · intro handle path error failed
    simp only [perform, load, failed]
    rfl
  · intro changer change address apart handle
    refine Option.ext fun value => ?_
    rw [FlatPool.values_run_iff, FlatPool.values_run_iff, kept_concat]
    refine ⟨?_, ?_⟩
    · intro done
      rcases done with ⟨rfl, _⟩ | ⟨_, ⟨⟩, _, kept⟩
      · exact absurd rfl apart
      · exact kept
    · exact fun kept => .inr ⟨handle, rfl, fun touched => apart touched.1, kept⟩

end ChainVariables
