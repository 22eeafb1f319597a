import ChainVariables.Duration
import ChainVariables.Store.Error

/-! # Why values could not be fetched -/

namespace ChainVariables

/-- Why the values of some requests could not all be fetched. -/
inductive FetchError where
  | unavailable (name : String) (address : Address) (source : StoreError)
  | timeout (received expected : Nat) (limit : Duration)
  /-- Every read has ended, but not every one with an outcome. -/
  | disconnected (received expected : Nat)
  | spawnFailed (name : String) (source : IoError)

namespace FetchError

def message : FetchError → String
  | unavailable name address source =>
      "failed to fetch system variable " ++ name ++ " from " ++ address.text ++ ": "
        ++ source.message
  | timeout received expected limit =>
      "timed out after " ++ limit.text ++ " with " ++ received.repr ++ " of " ++ expected.repr
        ++ " values fetched"
  | disconnected received expected =>
      "fetch threads exited with " ++ received.repr ++ " of " ++ expected.repr
        ++ " outcomes reported"
  | spawnFailed name source =>
      "failed to spawn fetch thread for system variable " ++ name ++ ": " ++ source.message

end FetchError

end ChainVariables
