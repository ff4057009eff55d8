import FixClient.Scenario.Basic

/-!
# Built-in scenarios

Thirteen scenarios have names of their own. Each logs on first and waits for the
answer.
-/

namespace FixClient.Scenario

/-- The steps of a built-in scenario after logging on. -/
def builtinTail (name : String) : Option (Scenario → Scenario) :=
  match name with
  | "positions" => some fun s =>
      (s.exchange (.positions ⟨"pos-1", .snapshot, 1, 0, usualTime, usualTime⟩)).follow
  | "positions-subscribe" => some fun s =>
      (s.exchange (.positions ⟨"pos-2", .snapshotPlusUpdates, 1, 0, usualTime, usualTime⟩)).exchange
        (.positions ⟨"pos-2", .unsubscribe, 1, 0, usualTime, usualTime⟩)
  | "logon" => some follow
  | "logout" => some fun s => s.exchange .logout
  | "market-data" => some fun s => (s.send (.marketData { mdReqId := "test" })).follow
  | "new-order" => some fun s => (s.send (.newOrder { clOrdId := "test-4" })).follow
  | "cancel" => some fun s =>
      (s.send (.cancel { clOrdId := "test-3", origClOrdId := "test-2" })).follow
  | "replace" => some fun s =>
      (s.send (.replace { clOrdId := "test-5", origClOrdId := "test-1" })).follow
  | "order-status" => some fun s => (s.exchange (.orderStatus { clOrdId := "test-4" })).follow
  | "mass-status" => some fun s =>
      (s.exchange (.massStatus { massStatusReqId := "req_1" })).follow
  | "mass-cancel" => some fun s => (s.send (.massCancel { clOrdId := "req1" })).follow
  | "trade-capture" => some fun s => (s.send (.tradeCapture { tradeRequestId := "req1" })).follow
  | "security-list" => some fun s =>
      (s.exchange (.securityList { securityReqId := "sec-1" })).follow
  | _ => none

/-- The built-in scenario of a name, logging on with the given Logon. -/
def builtin? (name : String) (logon : Logon) : Option Scenario :=
  (builtinTail name).map fun tail =>
    tail (exchange { name := name } (.logon logon))

def builtinNames : List String :=
  ["positions", "positions-subscribe", "logon", "logout", "market-data", "new-order", "cancel",
    "replace", "order-status", "mass-status", "mass-cancel", "trade-capture", "security-list"]

end FixClient.Scenario
