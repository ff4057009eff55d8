import FixClient.Catalog.Request
import FixClient.Identity
import FixClient.Message

/-!
# Building messages

Each request becomes a message: version, type and the two component identifiers,
then the fields of its kind in a fixed order.
-/

namespace FixClient.Request

def msgType : Request → MsgType
  | logon _ => .logon
  | logout => .logout
  | heartbeat _ => .heartbeat
  | testRequest _ => .testRequest
  | marketData _ => .marketDataRequest
  | newOrder _ => .newOrderSingle
  | cancel _ => .orderCancelRequest
  | replace _ => .orderCancelReplaceRequest
  | orderStatus _ => .orderStatusRequest
  | positions _ => .requestForPositions
  | massStatus _ => .orderMassStatusRequest
  | massCancel _ => .orderMassCancelRequest
  | tradeCapture _ => .tradeCaptureReportRequest
  | securityList _ => .securityListRequest

def header (id : Identity) (type : MsgType) : List Field :=
  [⟨.beginString, .text id.beginString⟩, ⟨.msgType, .text type.code⟩,
    ⟨.senderCompId, .compId id.sender⟩, ⟨.targetCompId, .compId id.target⟩]

/-- A time to the second as a value. -/
def time (t : Timestamp) : Value := .text (String.ofList t.secondsText)

def date (t : Timestamp) : Value := .text (String.ofList t.dateText)

/-- The fields of a request after the header, in order. -/
def body (id : Identity) : Request → List Field
  | logon p =>
    [⟨553, .text p.username⟩, ⟨554, .text p.password⟩, ⟨108, .count p.heartbeatInterval⟩,
      ⟨98, .code p.encryptMethod⟩, ⟨141, .flag p.resetSeqNum⟩]
  | logout => []
  | heartbeat testReqId => testReqId.toList.map fun s => ⟨112, .text s⟩
  | testRequest testReqId => [⟨112, .text testReqId⟩]
  | marketData p =>
    [⟨262, .text p.mdReqId⟩, ⟨263, .code p.subscription⟩, ⟨264, .count p.marketDepth⟩,
      ⟨265, .code p.updateType⟩, ⟨266, .flag p.aggregatedBook⟩,
      ⟨267, .uint p.entryTypes.length.toUInt64⟩] ++
      p.entryTypes.map (fun e => ⟨269, .code e⟩) ++
      [⟨146, .uint 1⟩, ⟨55, .text id.symbol⟩, ⟨207, .text id.exchange⟩]
  | newOrder p =>
    [⟨11, .text p.clOrdId⟩, ⟨1, .text id.account⟩, ⟨55, .text id.symbol⟩,
      ⟨207, .text id.exchange⟩, ⟨54, .code p.side⟩, ⟨40, .code p.ordType⟩,
      ⟨38, .decimal p.quantity⟩, ⟨44, .decimal p.price⟩, ⟨59, .code p.timeInForce⟩,
      ⟨60, time p.transactTime⟩]
  | cancel p =>
    [⟨11, .text p.clOrdId⟩, ⟨41, .text p.origClOrdId⟩, ⟨1, .text id.account⟩,
      ⟨55, .text id.symbol⟩, ⟨207, .text id.exchange⟩, ⟨54, .code p.side⟩,
      ⟨38, .decimal p.quantity⟩, ⟨60, time p.transactTime⟩]
  | replace p =>
    [⟨11, .text p.clOrdId⟩, ⟨41, .text p.origClOrdId⟩, ⟨1, .text id.account⟩,
      ⟨55, .text id.symbol⟩, ⟨207, .text id.exchange⟩, ⟨54, .code p.side⟩,
      ⟨40, .code p.ordType⟩, ⟨38, .decimal p.quantity⟩, ⟨44, .decimal p.price⟩,
      ⟨60, time p.transactTime⟩]
  | orderStatus p =>
    [⟨11, .text p.clOrdId⟩, ⟨1, .text id.account⟩, ⟨55, .text id.symbol⟩,
      ⟨207, .text id.exchange⟩, ⟨54, .code p.side⟩]
  | positions p =>
    [⟨1, .text id.account⟩, ⟨207, .text id.exchange⟩, ⟨55, .text id.symbol⟩,
      ⟨263, .code p.subscription⟩, ⟨581, .count p.accountType⟩, ⟨710, .text p.posReqId⟩,
      ⟨724, .count p.posReqType⟩, ⟨715, date p.clearingBusinessDate⟩,
      ⟨60, time p.transactTime⟩]
  | massStatus p =>
    [⟨1, .text id.account⟩, ⟨207, .text id.exchange⟩, ⟨55, .text id.symbol⟩,
      ⟨584, .text p.massStatusReqId⟩, ⟨585, .code p.reqType⟩]
  | massCancel p =>
    [⟨207, .text id.exchange⟩, ⟨55, .text id.symbol⟩, ⟨11, .text p.clOrdId⟩,
      ⟨530, .code p.requestType⟩, ⟨60, time p.transactTime⟩]
  | tradeCapture p =>
    [⟨207, .text id.exchange⟩, ⟨55, .text id.symbol⟩, ⟨568, .text p.tradeRequestId⟩,
      ⟨569, .code p.tradeRequestType⟩, ⟨263, .code p.subscription⟩]
  | securityList p =>
    [⟨320, .text p.securityReqId⟩, ⟨559, .code p.requestType⟩, ⟨207, .text id.exchange⟩,
      ⟨263, .code p.subscription⟩]

def build (id : Identity) (r : Request) : Message := ⟨header id r.msgType ++ r.body id⟩

end FixClient.Request
