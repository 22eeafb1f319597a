import ChainVariables.Address
import ChainVariables.Duration

/-! # Configuration of a cache -/

namespace ChainVariables

def systemSpace : Bytes := Utf8.encode "sysvar"

def directoryKey : Bytes := Utf8.encode "svi_map"

/-- Where the directory is kept unless configured otherwise. -/
def defaultDirectoryAddress : Address := ⟨systemSpace, directoryKey⟩

/-- What can be configured of a cache. -/
structure Config where
  directoryAddress : Address := defaultDirectoryAddress
  /-- How long the values of one refresh may take to arrive. -/
  timeout : Duration
  logEvents : Bool := true
  deriving DecidableEq, Repr

def Config.debug (config : Config) : String :=
  "Configuration \x7b directory_location: " ++ config.directoryAddress.debug
    ++ ", refresh_timeout: " ++ config.timeout.text
    ++ ", log_events: " ++ (if config.logEvents then "true" else "false") ++ " \x7d"

end ChainVariables
