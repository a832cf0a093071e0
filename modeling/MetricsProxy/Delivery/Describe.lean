import MetricsProxy.Delivery.Client

/-!
# A client in the log

A client is shown with its settings but without its token.
-/
namespace MetricsProxy.Delivery.Client

def escapeChar (c : Char) : List Char :=
  if c = '"' ∨ c = '\\' then ['\\', c]
  else if c = '\n' then ['\\', 'n']
  else if c = '\r' then ['\\', 'r']
  else if c = '\t' then ['\\', 't']
  else if c = '\x00' then ['\\', '0']
  else if c.toNat < 0x20 ∨ c = '\x7f' then
    ['\\', 'u', '\x7b'] ++ Nat.toDigits 16 c.toNat ++ ['\x7d']
  else [c]

def quote (s : String) : String := "\"" ++ String.ofList (s.toList.flatMap escapeChar) ++ "\""

def strategyText : RetryStrategy → String
  | .immediate n => s!"Immediate({n})"
  | .linear n d => s!"LinearBackoff({n}, {d})"
  | .exponential n b m =>
      s!"ExponentialBackoff \x7b attempts: {n}, base_delay_ms: {b}, max_delay_ms: {m} \x7d"

/-- The client for a reader of the log, who is not told the token. -/
def describe (c : Client) : String :=
  let e := c.endpoint
  let fields := [s!"server: {quote e.server}", s!"agent_id: {quote e.agentId}",
    s!"hostname: {quote e.hostname}", s!"retry_strategy: {strategyText c.strategy}", ".."]
  "WavefrontApi \x7b " ++ ", ".intercalate fields ++ " \x7d"

end MetricsProxy.Delivery.Client
