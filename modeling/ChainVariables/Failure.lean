import ChainVariables.Cache

/-! # Errors and what lies behind them

An error may report another one, its source, and that one yet another. The chain
of sources ends, since each of them is a part of the error before it.
-/

namespace ChainVariables

/-- Any error of the library. -/
inductive Failure where
  | io (error : IoError)
  | decode (error : DecodeError)
  | store (error : StoreError)
  | directory (error : DirectoryError)
  | fetch (error : FetchError)
  | update (error : UpdateError)
  | get (error : GetError)
  | set (error : SetError)

namespace Failure

def message : Failure → String
  | io error => error.message
  | decode error => error.message
  | store error => error.message
  | directory error => error.message
  | fetch error => error.message
  | update error => error.message
  | get error => error.message
  | set error => error.message

/-- The error behind an error. -/
def source? : Failure → Option Failure
  | io error => error.source?.map io
  | decode error => error.source?.map io
  | store error => error.source?.map io
  | directory _ => none
  | fetch (.unavailable _ _ source) => some (store source)
  | fetch (.timeout ..) | fetch (.disconnected ..) => none
  | fetch (.spawnFailed _ source) => some (io source)
  | update (.fetchDirectory source) => some (store source)
  | update (.decodeDirectory source) => some (decode source)
  | update (.fetch source) => some (fetch source)
  | update (.encodeSnapshot source) => some (io source)
  | get (.notFound _) => none
  | get (.malformed _ source) => some (decode source)
  | set (.encode _ source) => some (io source)

theorem sizeOf_source_lt {failure source : Failure} (behind : failure.source? = some source) :
    sizeOf source < sizeOf failure := by
  cases failure with
  | io error =>
      cases error with
      | bare | described => cases behind
      | wrapping kind cause =>
          cases cause <;> cases behind
          simp +arith
  | decode error =>
      cases error <;> cases behind
      simp +arith
  | store error =>
      cases error <;> cases behind
      simp +arith
  | directory error => cases behind
  | fetch error =>
      cases error <;> cases behind <;> simp +arith
  | update error =>
      cases error <;> cases behind <;> simp +arith
  | get error =>
      cases error <;> cases behind
      simp +arith
  | set error =>
      cases error
      cases behind
      simp +arith

/-- An error and all that lie behind it, in order. -/
def chain (failure : Failure) : List Failure :=
  failure ::
    match behind : failure.source? with
    | none => []
    | some source =>
        have := sizeOf_source_lt behind
        chain source
  termination_by sizeOf failure

end Failure

end ChainVariables
