/-!
# Why a line is refused
-/
namespace MetricsProxy

inductive DecodeError where
  | empty
  | tokenCount (expected actual : Nat)
  | missingPut (first : String)
  | emptyMetric
  | invalidValue (token : String)
  | nonFiniteValue (token : String)
  | invalidTimestamp (token : String)
  | invalidTag (token : String)
  | lineTooLong (limit : Nat)
  deriving DecidableEq, Repr

namespace DecodeError

def message : DecodeError → String
  | empty => "empty line"
  | tokenCount expected actual => s!"expected {expected} tokens, got {actual}"
  | missingPut first => s!"line does not start with 'put': {first}"
  | emptyMetric => "empty metric name"
  | invalidValue token => s!"invalid value: {token}"
  | nonFiniteValue token => s!"value is not finite: {token}"
  | invalidTimestamp token => s!"invalid timestamp: {token}"
  | invalidTag token => s!"invalid tag: {token}"
  | lineTooLong limit => s!"line exceeds {limit} bytes"

end DecodeError
end MetricsProxy
