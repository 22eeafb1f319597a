import Mathlib.Data.Finset.Card
import ChainVariables.Fetch.Error
import ChainVariables.Proofs.Splits
import ChainVariables.Proofs.Text.Base64

/-! # What a printed address tells

An address is printed as two Base64 texts with a slash between them. A slash is
also a character of Base64, so a text with several slashes can be that of several
addresses (`ChainVariables.Address.text_eq_of_shifted_slash`). They differ only in
which of the slashes parts namespace and key
(`ChainVariables.Address.text_eq_iff_overlaps`): no two of them have namespaces or
keys of the same length, and there are at most as many of them as slashes.
-/

namespace ChainVariables

namespace Address

/-- One text is read as the first address at a slash, and as the second at a later slash. -/
def Overlaps (first second : Address) : Prop :=
  ∃ middle : String, Base64.encode second.space = Base64.encode first.space ++ "/" ++ middle ∧
    Base64.encode first.key = middle ++ "/" ++ Base64.encode second.key

/-- Where the slash stands that parts namespace and key. -/
def cut (address : Address) : Nat := (Base64.encode address.space).toList.length

theorem toList_text (address : Address) :
    address.text.toList =
      (Base64.encode address.space).toList ++ '/' :: (Base64.encode address.key).toList := by
  simp [text]

theorem eq_of_encode {first second : Address}
    (spaces : Base64.encode first.space = Base64.encode second.space)
    (keys : Base64.encode first.key = Base64.encode second.key) : first = second := by
  cases first
  cases second
  cases Base64.encode_injective spaces
  cases Base64.encode_injective keys
  rfl

namespace Overlaps

variable {first second : Address}

theorem text_eq (overlap : first.Overlaps second) : first.text = second.text := by
  obtain ⟨middle, spaces, keys⟩ := overlap
  rw [text, text, spaces, keys]
  simp only [String.append_assoc]

theorem cut_lt (overlap : first.Overlaps second) : first.cut < second.cut := by
  obtain ⟨middle, spaces, _⟩ := overlap
  rw [cut, cut, spaces, String.toList_append, String.toList_append, List.length_append,
    List.length_append]
  have slash : "/".toList.length = 1 := rfl
  omega

theorem space_length_ne (overlap : first.Overlaps second) :
    first.space.length ≠ second.space.length := by
  intro same
  have later := overlap.cut_lt
  rw [cut, cut, Base64.length_toList_encode, Base64.length_toList_encode, same] at later
  exact Nat.lt_irrefl _ later

theorem key_length_ne (overlap : first.Overlaps second) :
    first.key.length ≠ second.key.length := by
  intro same
  obtain ⟨middle, _, keys⟩ := overlap
  have long := congrArg (·.toList.length) keys
  simp only [String.toList_append, List.length_append, Base64.length_toList_encode, same] at long
  have slash : "/".toList.length = 1 := rfl
  omega

end Overlaps

/-- Addresses with the same text are the same, or a later slash parts one of them. -/
theorem overlaps_of_text_eq {first second : Address} (same : first.text = second.text) :
    first = second ∨ first.Overlaps second ∨ second.Overlaps first := by
  have later {first second : Address} {middle : List Char}
      (spaces : (Base64.encode second.space).toList =
        (Base64.encode first.space).toList ++ '/' :: middle)
      (keys : (Base64.encode first.key).toList =
        middle ++ '/' :: (Base64.encode second.key).toList) : first.Overlaps second :=
    ⟨String.ofList middle, String.toList_inj.mp (by simp [spaces]),
      String.toList_inj.mp (by simp [keys])⟩
  have split := congrArg String.toList same
  rw [toList_text, toList_text] at split
  rcases split_mark split with ⟨spaces, keys⟩ | ⟨middle, spaces, keys⟩ | ⟨middle, spaces, keys⟩
  · exact .inl (eq_of_encode (String.toList_inj.mp spaces) (String.toList_inj.mp keys))
  · exact .inr (.inl (later spaces keys))
  · exact .inr (.inr (later spaces keys))

/-- Of addresses with the same text, any number that no two of them share tells which it is. -/
theorem eq_iff_text_eq {number : Address → Nat}
    (apart : ∀ first second, Overlaps first second → number first ≠ number second)
    {first second : Address} :
    first = second ↔ first.text = second.text ∧ number first = number second := by
  refine ⟨?_, ?_⟩
  · rintro rfl
    exact ⟨rfl, rfl⟩
  · rintro ⟨same, counted⟩
    rcases overlaps_of_text_eq same with equal | overlap | overlap
    · exact equal
    · exact absurd counted (apart _ _ overlap)
    · exact absurd counted.symm (apart _ _ overlap)

theorem cut_mem_idxsOf (address : Address) : address.cut ∈ address.text.toList.idxsOf '/' := by
  rw [List.mem_idxsOf_iff_exists_getElem_pos, toList_text]
  refine ⟨?_, ?_⟩
  · simp [cut]
  · simp [cut, List.getElem_append_right]

/-- A text is that of at most as many addresses as it has slashes. -/
theorem card_filter_text_le (text : String) (addresses : Finset Address) :
    (addresses.filter (·.text = text)).card ≤ text.toList.count '/' := by
  have placed : ∀ address ∈ addresses.filter (·.text = text),
      address.cut ∈ (text.toList.idxsOf '/').toFinset := by
    intro address member
    obtain ⟨_, rfl⟩ := Finset.mem_filter.mp member
    exact List.mem_toFinset.mpr address.cut_mem_idxsOf
  have apart : Set.InjOn cut (addresses.filter (·.text = text)) := by
    intro first member second member' place
    have here := (Finset.mem_filter.mp member).2
    have there := (Finset.mem_filter.mp member').2
    exact (eq_iff_text_eq fun _ _ overlap => overlap.cut_lt.ne).mpr ⟨here.trans there.symm, place⟩
  calc (addresses.filter (·.text = text)).card
      ≤ (text.toList.idxsOf '/').toFinset.card := Finset.card_le_card_of_injOn cut placed apart
    _ ≤ (text.toList.idxsOf '/').length := List.toFinset_card_le _
    _ = text.toList.count '/' := List.length_idxsOf

theorem message_unavailable (name : String) (address : Address) (source : StoreError) :
    (FetchError.unavailable name address source).message =
      "failed to fetch system variable " ++ name ++ " from " ++ address.text ++ ": " ++
        source.message :=
  rfl

/-- **What a printed address tells.** Two addresses have the same text exactly if they are the same
or the text has two slashes, one of which parts the first address and the other one the second. So
the text tells the address if the length of the namespace or of the key is known, and without that
it is the text of at most as many addresses as it has slashes: of one only, if there is only one
slash. The same holds of the debug text, and of the message of a failed fetch. -/
theorem text_eq_iff_overlaps (first second : Address) :
    (first.text = second.text ↔
      first = second ∨ first.Overlaps second ∨ second.Overlaps first) ∧
    (first = second ↔ first.text = second.text ∧ first.space.length = second.space.length) ∧
    (first = second ↔ first.text = second.text ∧ first.key.length = second.key.length) ∧
    (∀ (text : String) (addresses : Finset Address),
      (addresses.filter (·.text = text)).card ≤ text.toList.count '/') ∧
    (first.debug = second.debug ↔ first.text = second.text) ∧
    ∀ name source, (FetchError.unavailable name first source).message =
      (FetchError.unavailable name second source).message ↔ first.text = second.text := by
  refine ⟨⟨overlaps_of_text_eq, ?_⟩, ?_, ?_, card_filter_text_le, ?_, ?_⟩
  · rintro (rfl | overlap | overlap)
    · rfl
    · exact overlap.text_eq
    · exact overlap.text_eq.symm
  · exact eq_iff_text_eq fun _ _ overlap => overlap.space_length_ne
  · exact eq_iff_text_eq fun _ _ overlap => overlap.key_length_ne
  · rw [debug, debug, String.append_left_inj, String.append_right_inj]
  · intro name source
    rw [message_unavailable, message_unavailable, String.append_left_inj, String.append_left_inj,
      String.append_right_inj]

/-- A namespace of three bytes with an empty key, and a key of these bytes in an empty namespace. -/
theorem text_eq_of_shifted_slash :
    let first : Address := ⟨[0xFF, 0xFF, 0xFF], []⟩
    let second : Address := ⟨[], [0xFF, 0xFF, 0xFF]⟩
    first ≠ second ∧ first.text = second.text ∧ first.text = "/////" :=
  ⟨by decide, rfl, rfl⟩

end Address

end ChainVariables
