/-!
# Message types

The value of tag 35. Twenty-six codes are known by name; any other is carried
as it is.
-/

namespace FixClient

inductive MsgType where
  | heartbeat
  | testRequest
  | reject
  | logout
  | executionReport
  | orderCancelReject
  | logon
  | newOrderSingle
  | orderCancelRequest
  | orderCancelReplaceRequest
  | orderStatusRequest
  | marketDataRequest
  | marketDataSnapshotFullRefresh
  | marketDataIncrementalRefresh
  | marketDataRequestReject
  | businessMessageReject
  | orderMassCancelRequest
  | orderMassCancelReport
  | securityListRequest
  | securityList
  | tradeCaptureReportRequest
  | tradeCaptureReport
  | orderMassStatusRequest
  | requestForPositions
  | requestForPositionsAck
  | positionReport
  /-- A code without a name here. -/
  | custom (code : String)
  deriving DecidableEq, Repr

namespace MsgType

/-- The text of tag 35. -/
def code : MsgType → String
  | heartbeat => "0"
  | testRequest => "1"
  | reject => "3"
  | logout => "5"
  | executionReport => "8"
  | orderCancelReject => "9"
  | logon => "A"
  | newOrderSingle => "D"
  | orderCancelRequest => "F"
  | orderCancelReplaceRequest => "G"
  | orderStatusRequest => "H"
  | marketDataRequest => "V"
  | marketDataSnapshotFullRefresh => "W"
  | marketDataIncrementalRefresh => "X"
  | marketDataRequestReject => "Y"
  | businessMessageReject => "j"
  | orderMassCancelRequest => "q"
  | orderMassCancelReport => "r"
  | securityListRequest => "x"
  | securityList => "y"
  | tradeCaptureReportRequest => "AD"
  | tradeCaptureReport => "AE"
  | orderMassStatusRequest => "AF"
  | requestForPositions => "AN"
  | requestForPositionsAck => "AO"
  | positionReport => "AP"
  | custom code => code

/-- The type with a given text of tag 35. -/
def ofCode : String → MsgType
  | "0" => heartbeat
  | "1" => testRequest
  | "3" => reject
  | "5" => logout
  | "8" => executionReport
  | "9" => orderCancelReject
  | "A" => logon
  | "D" => newOrderSingle
  | "F" => orderCancelRequest
  | "G" => orderCancelReplaceRequest
  | "H" => orderStatusRequest
  | "V" => marketDataRequest
  | "W" => marketDataSnapshotFullRefresh
  | "X" => marketDataIncrementalRefresh
  | "Y" => marketDataRequestReject
  | "j" => businessMessageReject
  | "q" => orderMassCancelRequest
  | "r" => orderMassCancelReport
  | "x" => securityListRequest
  | "y" => securityList
  | "AD" => tradeCaptureReportRequest
  | "AE" => tradeCaptureReport
  | "AF" => orderMassStatusRequest
  | "AN" => requestForPositions
  | "AO" => requestForPositionsAck
  | "AP" => positionReport
  | code => custom code

/-- No code is changed. -/
@[simp] theorem code_ofCode (s : String) : (ofCode s).code = s := by
  unfold ofCode
  split <;> rfl

/-- The types with a name of their own. -/
def named : List MsgType :=
  [heartbeat, testRequest, reject, logout, executionReport, orderCancelReject, logon,
    newOrderSingle, orderCancelRequest, orderCancelReplaceRequest, orderStatusRequest,
    marketDataRequest, marketDataSnapshotFullRefresh, marketDataIncrementalRefresh,
    marketDataRequestReject, businessMessageReject, orderMassCancelRequest,
    orderMassCancelReport, securityListRequest, securityList, tradeCaptureReportRequest,
    tradeCaptureReport, orderMassStatusRequest, requestForPositions, requestForPositionsAck,
    positionReport]

def name : MsgType → String
  | heartbeat => "Heartbeat"
  | testRequest => "TestRequest"
  | reject => "Reject"
  | logout => "Logout"
  | executionReport => "ExecutionReport"
  | orderCancelReject => "OrderCancelReject"
  | logon => "Logon"
  | newOrderSingle => "NewOrderSingle"
  | orderCancelRequest => "OrderCancelRequest"
  | orderCancelReplaceRequest => "OrderCancelReplaceRequest"
  | orderStatusRequest => "OrderStatusRequest"
  | marketDataRequest => "MarketDataRequest"
  | marketDataSnapshotFullRefresh => "MarketDataSnapshotFullRefresh"
  | marketDataIncrementalRefresh => "MarketDataIncrementalRefresh"
  | marketDataRequestReject => "MarketDataRequestReject"
  | businessMessageReject => "BusinessMessageReject"
  | orderMassCancelRequest => "OrderMassCancelRequest"
  | orderMassCancelReport => "OrderMassCancelReport"
  | securityListRequest => "SecurityListRequest"
  | securityList => "SecurityList"
  | tradeCaptureReportRequest => "TradeCaptureReportRequest"
  | tradeCaptureReport => "TradeCaptureReport"
  | orderMassStatusRequest => "OrderMassStatusRequest"
  | requestForPositions => "RequestForPositions"
  | requestForPositionsAck => "RequestForPositionsAck"
  | positionReport => "PositionReport"
  | custom _ => "Custom"

/-- The types that run the session rather than trade. -/
def isAdmin : MsgType → Bool
  | heartbeat | testRequest | reject | logout | logon => true
  | _ => false

end MsgType

end FixClient
