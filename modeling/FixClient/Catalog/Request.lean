import FixClient.Codes
import FixClient.Decimal
import FixClient.Timestamp

/-!
# Requests

The fourteen kinds of messages a client sends, each with its parameters and
their usual values.
-/

namespace FixClient

/-- The time stamped into requests unless another is given: the last second of
the first day. -/
def usualTime : Timestamp := Timestamp.ofSeconds 86399

structure Logon where
  username : String
  password : String
  heartbeatInterval : UInt32 := 5
  encryptMethod : EncryptMethod := .noEncryption
  resetSeqNum : Bool := true
  deriving DecidableEq, Repr

structure MarketDataRequest where
  mdReqId : String
  subscription : SubscriptionRequestType := .snapshotPlusUpdates
  marketDepth : UInt32 := 0
  updateType : MdUpdateType := .incremental
  aggregatedBook : Bool := true
  entryTypes : List MdEntryType := [.bid, .offer]
  deriving DecidableEq, Repr

structure NewOrderSingle where
  clOrdId : String
  side : Side := .buy
  ordType : OrdType := .limit
  quantity : Decimal := .ofInt 10 1
  price : Decimal := .ofInt 1000 1
  timeInForce : TimeInForce := .goodTillCancel
  transactTime : Timestamp := usualTime
  deriving Repr

structure OrderCancelRequest where
  clOrdId : String
  origClOrdId : String
  side : Side := .buy
  quantity : Decimal := .ofInt 10 1
  transactTime : Timestamp := usualTime
  deriving Repr

structure OrderCancelReplaceRequest where
  clOrdId : String
  origClOrdId : String
  side : Side := .buy
  ordType : OrdType := .limit
  quantity : Decimal := .ofInt 10 1
  price : Decimal := .ofInt 2000 1
  transactTime : Timestamp := usualTime
  deriving Repr

structure OrderStatusRequest where
  clOrdId : String
  side : Side := .buy
  deriving DecidableEq, Repr

structure RequestForPositions where
  posReqId : String
  subscription : SubscriptionRequestType
  accountType : UInt32 := 1
  posReqType : UInt32 := 0
  clearingBusinessDate : Timestamp := usualTime
  transactTime : Timestamp := usualTime
  deriving DecidableEq, Repr

structure OrderMassStatusRequest where
  massStatusReqId : String
  reqType : MassStatusReqType := .security
  deriving DecidableEq, Repr

structure OrderMassCancelRequest where
  clOrdId : String
  requestType : MassCancelRequestType := .security
  transactTime : Timestamp := usualTime
  deriving DecidableEq, Repr

structure TradeCaptureReportRequest where
  tradeRequestId : String
  tradeRequestType : TradeRequestType := .allTrades
  subscription : SubscriptionRequestType := .snapshot
  deriving DecidableEq, Repr

structure SecurityListRequest where
  securityReqId : String
  requestType : SecurityListRequestType := .allSecurities
  subscription : SubscriptionRequestType := .snapshot
  deriving DecidableEq, Repr

inductive Request where
  | logon (p : Logon)
  | logout
  /-- A heartbeat, with the identifier of the test it answers, if any. -/
  | heartbeat (testReqId : Option String)
  | testRequest (testReqId : String)
  | marketData (p : MarketDataRequest)
  | newOrder (p : NewOrderSingle)
  | cancel (p : OrderCancelRequest)
  | replace (p : OrderCancelReplaceRequest)
  | orderStatus (p : OrderStatusRequest)
  | positions (p : RequestForPositions)
  | massStatus (p : OrderMassStatusRequest)
  | massCancel (p : OrderMassCancelRequest)
  | tradeCapture (p : TradeCaptureReportRequest)
  | securityList (p : SecurityListRequest)
  deriving Repr

end FixClient
