/-!
# One-character codes

Fields such as Side or OrdType hold one character out of a short list. Each such
list is an enumeration; the class gives its members, their characters and their
names.
-/

namespace FixClient

/-- An enumeration whose members are written as one character. -/
class Code (α : Type) where
  members : List α
  char : α → Char
  name : α → String

def Code.ofChar? {α : Type} [Code α] (c : Char) : Option α :=
  (Code.members (α := α)).find? fun a => Code.char a == c

def Code.ofName? {α : Type} [Code α] (name : String) : Option α :=
  (Code.members (α := α)).find? fun a => Code.name a == name

/-- Order side, tag 54. -/
inductive Side where
  | buy
  | sell
  deriving DecidableEq, Repr

instance : Code Side where
  members := [.buy, .sell]
  char | .buy => '1' | .sell => '2'
  name | .buy => "Buy" | .sell => "Sell"

/-- Order type, tag 40. -/
inductive OrdType where
  | market
  | limit
  | stop
  | stopLimit
  deriving DecidableEq, Repr

instance : Code OrdType where
  members := [.market, .limit, .stop, .stopLimit]
  char | .market => '1' | .limit => '2' | .stop => '3' | .stopLimit => '4'
  name | .market => "Market" | .limit => "Limit" | .stop => "Stop" | .stopLimit => "StopLimit"

/-- How long an order stays, tag 59. -/
inductive TimeInForce where
  | day
  | goodTillCancel
  | immediateOrCancel
  | fillOrKill
  | goodTillDate
  deriving DecidableEq, Repr

instance : Code TimeInForce where
  members := [.day, .goodTillCancel, .immediateOrCancel, .fillOrKill, .goodTillDate]
  char
    | .day => '0'
    | .goodTillCancel => '1'
    | .immediateOrCancel => '3'
    | .fillOrKill => '4'
    | .goodTillDate => '6'
  name
    | .day => "Day"
    | .goodTillCancel => "GoodTillCancel"
    | .immediateOrCancel => "ImmediateOrCancel"
    | .fillOrKill => "FillOrKill"
    | .goodTillDate => "GoodTillDate"

/-- What is asked of a subscription, tag 263. -/
inductive SubscriptionRequestType where
  | snapshot
  | snapshotPlusUpdates
  | unsubscribe
  deriving DecidableEq, Repr

instance : Code SubscriptionRequestType where
  members := [.snapshot, .snapshotPlusUpdates, .unsubscribe]
  char | .snapshot => '0' | .snapshotPlusUpdates => '1' | .unsubscribe => '2'
  name
    | .snapshot => "Snapshot"
    | .snapshotPlusUpdates => "SnapshotPlusUpdates"
    | .unsubscribe => "Unsubscribe"

/-- Kind of a market data entry, tag 269. -/
inductive MdEntryType where
  | bid
  | offer
  | trade
  deriving DecidableEq, Repr

instance : Code MdEntryType where
  members := [.bid, .offer, .trade]
  char | .bid => '0' | .offer => '1' | .trade => '2'
  name | .bid => "Bid" | .offer => "Offer" | .trade => "Trade"

/-- Kind of a market data update, tag 265. -/
inductive MdUpdateType where
  | fullRefresh
  | incremental
  deriving DecidableEq, Repr

instance : Code MdUpdateType where
  members := [.fullRefresh, .incremental]
  char | .fullRefresh => '0' | .incremental => '1'
  name | .fullRefresh => "FullRefresh" | .incremental => "Incremental"

/-- Encryption, tag 98. -/
inductive EncryptMethod where
  | noEncryption
  deriving DecidableEq, Repr

instance : Code EncryptMethod where
  members := [.noEncryption]
  char | .noEncryption => '0'
  name | .noEncryption => "NoEncryption"

/-- Scope of a mass cancel, tag 530. -/
inductive MassCancelRequestType where
  | security
  | allOrders
  deriving DecidableEq, Repr

instance : Code MassCancelRequestType where
  members := [.security, .allOrders]
  char | .security => '1' | .allOrders => '7'
  name | .security => "Security" | .allOrders => "AllOrders"

/-- Scope of a mass status request, tag 585. -/
inductive MassStatusReqType where
  | security
  | allOrders
  deriving DecidableEq, Repr

instance : Code MassStatusReqType where
  members := [.security, .allOrders]
  char | .security => '1' | .allOrders => '7'
  name | .security => "Security" | .allOrders => "AllOrders"

/-- Trades asked for, tag 569. -/
inductive TradeRequestType where
  | allTrades
  deriving DecidableEq, Repr

instance : Code TradeRequestType where
  members := [.allTrades]
  char | .allTrades => '0'
  name | .allTrades => "AllTrades"

/-- Securities asked for, tag 559. -/
inductive SecurityListRequestType where
  | symbol
  | allSecurities
  deriving DecidableEq, Repr

instance : Code SecurityListRequestType where
  members := [.symbol, .allSecurities]
  char | .symbol => '0' | .allSecurities => '4'
  name | .symbol => "Symbol" | .allSecurities => "AllSecurities"

end FixClient
