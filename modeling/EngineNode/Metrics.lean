import EngineNode.Bytes

/-!
# Metrics

What the node counts about itself, and the text in which it tells it. Counters with a label exist
once for each value that the label has taken.
-/

namespace EngineNode

/-- Counts by label, in the order in which the labels came up. -/
abbrev LabelledCount := List (String × Nat)

/-- Counts one more under a label. -/
def LabelledCount.add (label : String) : LabelledCount → LabelledCount
  | [] => [(label, 1)]
  | (name, count) :: rest =>
    if name = label then (name, count + 1) :: rest else (name, count) :: add label rest

structure Metrics where
  headNumber : Nat := 0
  invalidTips : Nat := 0
  /-- Calls and answered calls by method. -/
  requests : LabelledCount := []
  responses : LabelledCount := []
  /-- Verdicts on choices of the head and on payloads. -/
  forkchoiceStatuses : LabelledCount := []
  payloadStatuses : LabelledCount := []
  /-- Payloads that were started, those whose start was timed, and improvements of payloads. -/
  builds : Nat := 0
  timedBuilds : Nat := 0
  improvements : Nat := 0
  /-- Answered HTTP requests by method and path. -/
  httpResponses : LabelledCount := []
deriving DecidableEq, Repr

namespace Metrics

/-- A gauge is a signed 64-bit number and stays at the greatest one. -/
def gauge (n : Nat) : Nat := min n (Nat.pow 2 63 - 1)

/-- The value of a label in the text. -/
def labelValue (text : String) : String :=
  String.ofList (text.toList.flatMap fun c =>
    if c = '\\' then ['\\', '\\'] else if c = '\n' then ['\\', 'n']
    else if c = '"' then ['\\', '"'] else [c])

/-- The lines of a metric with one value. -/
def single (name kind help : String) (value : Nat) (suffixed : String) : List String :=
  ["# HELP " ++ name ++ " " ++ help, "# TYPE " ++ name ++ " " ++ kind,
    suffixed ++ " " ++ toString value]

/-- The lines of a metric with a label; none before a label has come up. -/
def labelled (name kind help label : String) (counts : LabelledCount) (suffixed : String) :
    List String :=
  if counts.isEmpty then []
  else
    ["# HELP " ++ name ++ " " ++ help, "# TYPE " ++ name ++ " " ++ kind] ++
      counts.map fun (value, count) =>
        suffixed ++ "\x7b" ++ label ++ "=\"" ++ labelValue value ++ "\"\x7d " ++ toString count

/-- The lines of the text, without those that hold times. -/
def lines (m : Metrics) : List String :=
  labelled "ENGINE_API_REQUESTS" "counter" "Number of Engine API requests per method" "method"
      m.requests "ENGINE_API_REQUESTS" ++
    labelled "ENGINE_API_RESPONSE_TIMES" "histogram"
      "Time spent handling Engine API requests per method" "method" m.responses
      "ENGINE_API_RESPONSE_TIMES_count" ++
    labelled "FORKCHOICE_UPDATED_STATUSES" "counter"
      "Number of forkchoice updates per returned status" "status" m.forkchoiceStatuses
      "FORKCHOICE_UPDATED_STATUSES" ++
    single "HEAD_NUMBER" "gauge" "Number of the canonical head block" (gauge m.headNumber)
      "HEAD_NUMBER" ++
    labelled "HTTP_API_RESPONSE_TIMES" "histogram" "Response times for HTTP API responses"
      "request_path" m.httpResponses "HTTP_API_RESPONSE_TIMES_count" ++
    single "INVALID_TIPSETS" "gauge" "Number of chain tips known to descend from a bad block"
      (gauge m.invalidTips) "INVALID_TIPSETS" ++
    single "IS_LIVE" "gauge" "Rollup engine status" 1 "IS_LIVE" ++
    labelled "NEW_PAYLOAD_STATUSES" "counter" "Number of new payloads per returned status" "status"
      m.payloadStatuses "NEW_PAYLOAD_STATUSES" ++
    single "PAYLOAD_BUILDS" "counter" "Number of payload builds started" m.builds
      "PAYLOAD_BUILDS" ++
    single "PAYLOAD_BUILD_TIMES" "histogram" "Time taken to build the empty block of a payload"
      m.timedBuilds "PAYLOAD_BUILD_TIMES_count" ++
    single "PAYLOAD_IMPROVEMENTS" "counter"
      "Number of times a payload was replaced by a block with more fees" m.improvements
      "PAYLOAD_IMPROVEMENTS"

end Metrics

end EngineNode
