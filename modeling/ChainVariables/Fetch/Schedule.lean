import ChainVariables.Fetch.Progress

/-! # What a fetch can meet

Once they are started the reads of a fetch act in any order. `Possible` relates
the reads still outstanding, and whether there is a time limit that can pass, to
the signals the collector may meet from then on.
-/

namespace ChainVariables

/-- The signals that a collector may meet while these reads are outstanding. -/
inductive Possible (limited : Prop) : List (Request × Answer) → List Signal → Prop where
  | pause (reads : List (Request × Answer)) : Possible limited reads []
  | value {before after : List (Request × Answer)} {request : Request} {bytes : Bytes}
      {later : List Signal} : Possible limited (before ++ after) later →
      Possible limited (before ++ (request, .value bytes) :: after) (.value request bytes :: later)
  | fault {before after : List (Request × Answer)} {request : Request} {error : StoreError}
      {later : List Signal} : Possible limited (before ++ after) later →
      Possible limited (before ++ (request, .fault error) :: after) (.fault request error :: later)
  /-- Some read crashes; the collector meets nothing. -/
  | crash {before after : List (Request × Answer)} {request : Request} {message : String}
      {later : List Signal} : Possible limited (before ++ after) later →
      Possible limited (before ++ (request, .crash message) :: after) later
  | expired (reads : List (Request × Answer)) : limited → Possible limited reads [.expired]
  /-- No read is outstanding, and none ever will be. -/
  | disconnected : Possible limited [] [.disconnected]

end ChainVariables
