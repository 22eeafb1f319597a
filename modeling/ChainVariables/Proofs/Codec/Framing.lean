import ChainVariables.Proofs.Codec.RoundTrip

/-! # Where a value ends

A value is read from the front of some bytes without a look at what follows it.
Bytes that are cut short inside a value are told apart from all other faults:
the reader then asks for more (`ChainVariables.Format.framed_read`). So no value
begins with the bytes of another one, and strict decoding has exactly three
answers (`ChainVariables.Format.decode_trichotomy`): the bytes are a value, they
begin with one, or no front of them is a value.
-/

namespace ChainVariables.Format

variable {α β : Type}

/-- The bytes that a reader takes for a value, no matter what follows them. Bytes that end inside
them are too short for the reader. -/
structure Frames (reader : Bytes → Except ReadFault (α × Bytes)) (value : α) (taken : Bytes) :
    Prop where
  followed : ∀ rest, reader (taken ++ rest) = .ok (value, rest)
  cut : ∀ front byte later, taken = front ++ byte :: later → reader front = .error .endOfInput

/-- Whatever a reader takes from an input, it frames. -/
def Framed (reader : Bytes → Except ReadFault (α × Bytes)) : Prop :=
  ∀ input value rest, reader input = .ok (value, rest) →
    ∃ taken, input = taken ++ rest ∧ Frames reader value taken

/-! ## Readers one after another -/

theorem Frames.bind {first : Bytes → Except ReadFault (α × Bytes)}
    {next : α × Bytes → Except ReadFault (β × Bytes)} {value : α} {result : β}
    {taken taken' : Bytes} (head : Frames first value taken)
    (tail : Frames (fun rest => next (value, rest)) result taken') :
    Frames (fun input => first input >>= next) result (taken ++ taken') where
  followed rest := by
    rw [List.append_assoc]
    exact bind_eq_ok.mpr ⟨_, head.followed _, tail.followed rest⟩
  cut front byte later split := by
    have ended (middle : Bytes) (begun : front = taken ++ middle)
        (remaining : taken' = middle ++ byte :: later) :
        (first front >>= next) = .error .endOfInput := by
      rw [begun, head.followed middle]
      exact tail.cut middle byte later remaining
    rcases List.append_eq_append_iff.mp split with
      ⟨middle, begun, remaining⟩ | ⟨missing, inside, remaining⟩
    · exact ended middle begun remaining
    · cases missing with
      | nil =>
          rw [List.append_nil] at inside
          exact ended [] (by rw [inside, List.append_nil]) remaining.symm
      | cons other missing =>
          rw [head.cut front other missing inside]
          rfl

theorem Framed.bind {first : Bytes → Except ReadFault (α × Bytes)}
    {next : α × Bytes → Except ReadFault (β × Bytes)} (head : Framed first)
    (tail : ∀ value, Framed fun rest => next (value, rest)) :
    Framed fun input => first input >>= next := by
  intro input result rest read
  obtain ⟨⟨value, middle⟩, begun, ended⟩ := bind_eq_ok.mp read
  obtain ⟨taken, rfl, frames⟩ := head input value middle begun
  obtain ⟨taken', rfl, frames'⟩ := tail value middle result rest ended
  exact ⟨taken ++ taken', (List.append_assoc ..).symm, frames.bind frames'⟩

/-- A reader that takes no bytes, but may refuse to go on. -/
theorem framed_of_check {reader : Bytes → Except ReadFault (α × Bytes)}
    (check : Except ReadFault α) (same : ∀ input, reader input = check.map (·, input)) :
    Framed reader := by
  intro input value rest read
  rw [same] at read
  cases check with
  | error fault => cases read
  | ok held =>
      cases read
      exact ⟨[], rfl, same, fun front byte later split => by simp at split⟩

theorem Framed.ite {condition : Prop} {_ : Decidable condition}
    {first second : Bytes → Except ReadFault (α × Bytes)} (yes : Framed first)
    (no : Framed second) : Framed fun input => if condition then first input else second input := by
  by_cases holds : condition
  · simp only [holds, ↓reduceIte]
    exact yes
  · simp only [holds, ↓reduceIte]
    exact no

theorem framed_fault (fault : ReadFault) :
    Framed (fun _ => .error fault : Bytes → Except ReadFault (α × Bytes)) :=
  framed_of_check (.error fault) fun _ => rfl

/-! ## Readers of bytes and words -/

theorem framed_takeByte : Framed takeByte := by
  intro input byte rest read
  cases input with
  | nil => cases read
  | cons other input =>
      cases read
      refine ⟨[byte], rfl, fun rest => rfl, ?_⟩
      intro front cutAt later split
      cases front with
      | nil => rfl
      | cons head front =>
          have counted := congrArg List.length split
          simp at counted

theorem framed_take (count : Nat) : Framed (take count) := by
  intro input bytes rest read
  obtain ⟨rfl, rfl⟩ := eq_append_of_take read
  refine ⟨bytes, rfl, take_append bytes, ?_⟩
  intro front byte later split
  have counted := congrArg List.length split
  rw [List.length_append, List.length_cons] at counted
  simp only [take, List.length_take]
  rw [if_neg (by omega)]

theorem framed_takeWord (width : Nat) : Framed (takeWord width) :=
  (framed_take width).bind fun taken =>
    framed_of_check (.ok (BitVec.ofNat _ (Word.ofBytes taken))) fun _ => rfl

theorem framed_takeCounted : Framed takeCounted :=
  (framed_takeWord 4).bind fun count => framed_take count.toNat

theorem framed_readItems {item : Bytes → Except ReadFault (α × Bytes)} (each : Framed item)
    (count : Nat) (before : List α) : Framed (readItems item count before) := by
  induction count generalizing before with
  | zero => exact framed_of_check (.ok before.reverse) fun _ => rfl
  | succ count ih =>
      have step : readItems item (count + 1) before = fun input =>
          item input >>= fun found => readItems item count (found.1 :: before) found.2 := by
        funext input
        simp only [readItems]
        cases item input <;> rfl
      rw [step]
      exact each.bind fun value => ih (value :: before)

theorem framed_read_block (length : Nat) : Framed (block length).read := by
  have step : (block length).read = fun input => take length input >>= fun part =>
      if exact : part.1.length = length then .ok (⟨part.1, exact⟩, part.2)
      else .error .endOfInput := by
    funext input
    by_cases exact : (input.take length).length = length <;>
      simp only [read, take, exact, ↓reduceDIte, ↓reduceIte, bind, Except.bind]
  rw [step]
  refine (framed_take length).bind fun bytes => ?_
  by_cases exact : bytes.length = length
  · exact framed_of_check (.ok ⟨bytes, exact⟩) fun rest => dif_pos exact
  · exact framed_of_check (.error .endOfInput) fun rest => dif_neg exact

/-! ## All formats -/

theorem framed_read_pair {first : Format α} {second : Format β} (head : Framed first.read)
    (tail : Framed second.read) : Framed (pair first second).read :=
  head.bind fun left => tail.bind fun right => framed_of_check (.ok (left, right)) fun _ => rfl

/-- **A reader looks at the bytes of its value only.** -/
theorem framed_read (format : Format α) : Framed format.read := by
  induction format with
  | unit => exact framed_of_check (.ok ()) fun _ => rfl
  | bool =>
      exact framed_takeByte.bind fun tag => Framed.ite (framed_of_check (.ok false) fun _ => rfl)
        (Framed.ite (framed_of_check (.ok true) fun _ => rfl) (framed_fault _))
  | word width => exact framed_takeWord width
  | nonzero width =>
      refine (framed_takeWord width).bind fun value => ?_
      by_cases zero : value = 0
      · exact framed_of_check (.error .zero) fun rest => by simp only [zero]; rfl
      · exact framed_of_check (.ok ⟨value, zero⟩) fun rest => dif_pos zero
  | float shape =>
      exact (framed_takeWord shape.width).bind fun bits =>
        Framed.ite (framed_fault _) (framed_of_check (.ok bits) fun _ => rfl)
  | text =>
      refine framed_takeCounted.bind fun taken => ?_
      cases decoded : Utf8.decode taken with
      | ok value => exact framed_of_check (.ok value) fun rest => by simp only [decoded]; rfl
      | error fault =>
          exact framed_of_check (.error (.text fault)) fun rest => by simp only [decoded]; rfl
  | bytes => exact framed_takeCounted
  | block length => exact framed_read_block length
  | pair first second firstIh secondIh => exact framed_read_pair firstIh secondIh
  | option item ih =>
      exact framed_takeByte.bind fun tag => Framed.ite (framed_of_check (.ok none) fun _ => rfl)
        (Framed.ite (ih.bind fun value => framed_of_check (.ok (some value)) fun _ => rfl)
          (framed_fault _))
  | result failure success failureIh successIh =>
      exact framed_takeByte.bind fun tag => Framed.ite
        (failureIh.bind fun reason => framed_of_check (.ok (.error reason)) fun _ => rfl)
        (Framed.ite (successIh.bind fun value => framed_of_check (.ok (.ok value)) fun _ => rfl)
          (framed_fault _))
  | list item ih =>
      exact Framed.ite (framed_fault _)
        ((framed_takeWord 4).bind fun count => framed_readItems ih count.toNat [])
  | map key value keyIh valueIh =>
      exact (framed_takeWord 4).bind fun count =>
        (framed_readItems (framed_read_pair keyIh valueIh) count.toNat []).bind fun entries =>
          framed_of_check (.ok (.ofList entries)) fun _ => rfl
  | via source build parts build_parts parts_build ih =>
      exact ih.bind fun value => framed_of_check (.ok (build value)) fun _ => rfl

/-! ## Strict decoding -/

/-- The bytes are exactly one value. -/
def Accepts (format : Format α) (bytes : Bytes) : Prop :=
  ∃ value, format.decode bytes = .ok value

theorem Frames.decode {format : Format α} {value : α} {bytes : Bytes}
    (frames : Frames format.read value bytes) : format.decode bytes = .ok value := by
  have read := frames.followed []
  rw [List.append_nil] at read
  exact decode_eq_ok_iff.mpr read

theorem Frames.decode_append {format : Format α} {value : α} {bytes rest : Bytes}
    (frames : Frames format.read value bytes) (more : rest ≠ []) :
    format.decode (bytes ++ rest) = .error (.trailing rest.length) := by
  obtain ⟨byte, later, rfl⟩ := List.exists_cons_of_ne_nil more
  simp only [Format.decode, frames.followed]

/-- Bytes that begin with a value are decoded to it, or else what is left over is counted. -/
theorem Frames.decode_cases {format : Format α} {value : α} {bytes : Bytes}
    (frames : Frames format.read value bytes) (rest : Bytes) :
    rest = [] ∧ format.decode (bytes ++ rest) = .ok value ∨
      rest ≠ [] ∧ format.decode (bytes ++ rest) = .error (.trailing rest.length) := by
  by_cases none : rest = []
  · refine .inl ⟨none, ?_⟩
    rw [none, List.append_nil, frames.decode]
  · exact .inr ⟨none, frames.decode_append none⟩

theorem Frames.decode_front {format : Format α} {value : α} {bytes front : Bytes}
    (frames : Frames format.read value bytes) (inside : front <+: bytes) (short : front ≠ bytes) :
    format.decode front =
      .error (.malformed (.described .invalidInput "Unexpected length of input")) := by
  obtain ⟨rest, rfl⟩ := inside
  cases rest with
  | nil => exact absurd (List.append_nil front).symm short
  | cons byte later =>
      exact decode_of_read_eq_error (frames.cut front byte later rfl)

theorem accepts_iff_frames {format : Format α} {bytes : Bytes} :
    format.Accepts bytes ↔ ∃ value, Frames format.read value bytes := by
  refine ⟨?_, ?_⟩
  · intro accepted
    obtain ⟨value, decoded⟩ := accepted
    obtain ⟨taken, same, frames⟩ := framed_read format _ _ _ (decode_eq_ok_iff.mp decoded)
    rw [List.append_nil] at same
    exact ⟨value, same ▸ frames⟩
  · intro framed
    obtain ⟨value, frames⟩ := framed
    exact ⟨value, frames.decode⟩

/-- Unless the bytes begin with a value, they cannot be read. -/
theorem frames_or_malformed (format : Format α) (bytes : Bytes) :
    (∃ value front rest, bytes = front ++ rest ∧ Frames format.read value front) ∨
      ∃ cause, format.decode bytes = .error (.malformed cause) := by
  cases read : format.read bytes with
  | ok found =>
      obtain ⟨value, rest⟩ := found
      obtain ⟨front, same, frames⟩ := framed_read format _ _ _ read
      exact .inl ⟨value, front, rest, same, frames⟩
  | error fault => exact .inr ⟨fault.toIoError, decode_of_read_eq_error read⟩

theorem eq_of_accepts_front {format : Format α} {front other : Bytes}
    (accepted : format.Accepts front) (accepted' : format.Accepts other)
    (within : front <+: other) : front = other := by
  obtain ⟨value, frames⟩ := accepts_iff_frames.mp accepted
  obtain ⟨value', decoded⟩ := accepted'
  obtain ⟨rest, rfl⟩ := within
  rcases frames.decode_cases rest with ⟨none, _⟩ | ⟨_, left⟩
  · rw [none, List.append_nil]
  · cases left.symm.trans decoded

/-- What is left over is counted from the end of the value that the bytes begin with. -/
theorem decode_eq_trailing_iff {format : Format α} {bytes : Bytes} {remaining : Nat} :
    format.decode bytes = .error (.trailing remaining) ↔
      0 < remaining ∧ ∃ front, front <+: bytes ∧ format.Accepts front ∧ front ≠ bytes ∧
        front.length + remaining = bytes.length := by
  refine ⟨?_, ?_⟩
  · intro left
    rcases frames_or_malformed format bytes with ⟨value, front, rest, rfl, frames⟩ | ⟨_, failed⟩
    · rcases frames.decode_cases rest with ⟨_, decoded⟩ | ⟨more, counted⟩
      · cases left.symm.trans decoded
      · cases left.symm.trans counted
        have positive := List.length_pos_iff.mpr more
        refine ⟨positive, front, List.prefix_append .., ⟨value, frames.decode⟩, ?_,
          List.length_append.symm⟩
        intro same
        exact more (List.self_eq_append_right.mp same)
    · cases left.symm.trans failed
  · intro begun
    obtain ⟨_, front, ⟨rest, rfl⟩, accepted, short, counted⟩ := begun
    obtain ⟨value, frames⟩ := accepts_iff_frames.mp accepted
    have more : rest ≠ [] := fun none => short (by rw [none, List.append_nil])
    rw [frames.decode_append more]
    rw [List.length_append, Nat.add_left_cancel_iff] at counted
    rw [counted]

/-- Bytes cannot be read exactly if no front of them is a value. -/
theorem decode_eq_malformed_iff {format : Format α} {bytes : Bytes} :
    (∃ cause, format.decode bytes = .error (.malformed cause)) ↔
      ∀ front, front <+: bytes → ¬ format.Accepts front := by
  refine ⟨?_, ?_⟩
  · intro malformed front within accepted
    obtain ⟨cause, failed⟩ := malformed
    obtain ⟨rest, rfl⟩ := within
    obtain ⟨value, frames⟩ := accepts_iff_frames.mp accepted
    rcases frames.decode_cases rest with ⟨_, decoded⟩ | ⟨_, left⟩
    · cases failed.symm.trans decoded
    · cases failed.symm.trans left
  · intro none
    rcases frames_or_malformed format bytes with ⟨value, front, rest, rfl, frames⟩ | failed
    · exact absurd ⟨value, frames.decode⟩ (none front (List.prefix_append ..))
    · exact failed

/-- **The three answers of strict decoding.** At most one front of some bytes is a value, and it
decides what decoding answers: a value if it is all of the bytes, the number of bytes left over if
it is shorter, and a fault if there is none. So a value that is cut short is always reported as an
input that ends too early, and any bytes added to it are counted. -/
theorem decode_trichotomy (format : Format α) (bytes : Bytes) :
    (∀ front other, front <+: bytes → other <+: bytes → format.Accepts front →
      format.Accepts other → front = other) ∧
    ((∃ value, format.decode bytes = .ok value) ↔
      ∃ front, front <+: bytes ∧ format.Accepts front ∧ front = bytes) ∧
    (∀ remaining, format.decode bytes = .error (.trailing remaining) ↔
      0 < remaining ∧ ∃ front, front <+: bytes ∧ format.Accepts front ∧ front ≠ bytes ∧
        front.length + remaining = bytes.length) ∧
    ((∃ cause, format.decode bytes = .error (.malformed cause)) ↔
      ∀ front, front <+: bytes → ¬ format.Accepts front) ∧
    (format.Accepts bytes →
      (∀ front, front <+: bytes → front ≠ bytes → format.decode front =
        .error (.malformed (.described .invalidInput "Unexpected length of input"))) ∧
      ∀ more, more ≠ [] → format.decode (bytes ++ more) = .error (.trailing more.length)) := by
  refine ⟨?_, ?_, ?_, ?_, ?_⟩
  · intro front other within within' accepted accepted'
    rcases List.prefix_or_prefix_of_prefix within within' with shorter | longer
    · exact eq_of_accepts_front accepted accepted' shorter
    · exact (eq_of_accepts_front accepted' accepted longer).symm
  · refine ⟨fun decoded => ⟨bytes, List.prefix_rfl, decoded, rfl⟩, ?_⟩
    intro whole
    obtain ⟨front, _, accepted, same⟩ := whole
    exact same ▸ accepted
  · intro remaining
    exact decode_eq_trailing_iff
  · exact decode_eq_malformed_iff
  · intro accepted
    obtain ⟨value, frames⟩ := accepts_iff_frames.mp accepted
    exact ⟨fun front inside short => frames.decode_front inside short,
      fun more nonempty => frames.decode_append nonempty⟩

end ChainVariables.Format
