import TableView.Column

/-!
# Catalogs

The pages that show tables, and for each page the columns it can show together
with the keys that may be sorted and filtered. Two catalogs are built in.
-/

namespace TableView

/-- A page with a table of its own. -/
inductive Page where
  | channels
  | closedChannels
  | peers
  | payments
  | invoices
  | onChain
  | forwards
  | workflows
deriving DecidableEq

namespace Page

/-- The name of a page in definitions, messages and file names. -/
def name : Page → String
  | channels => "channels"
  | closedChannels => "closedChannels"
  | peers => "peers"
  | payments => "payments"
  | invoices => "invoices"
  | onChain => "onChain"
  | forwards => "forwards"
  | workflows => "workflows"

/-- All pages. -/
def all : List Page :=
  [channels, closedChannels, peers, payments, invoices, onChain, forwards, workflows]

/-- Changes what a table of pages holds for one page. -/
def update (table : Page → α) (page : Page) (a : α) : Page → α :=
  fun p => if p = page then a else table p

@[simp] theorem update_self (table : Page → α) (page : Page) (a : α) :
    update table page a page = a := by
  simp [update]

@[simp] theorem update_of_ne (table : Page → α) {page other : Page} (h : other ≠ page) (a : α) :
    update table page a other = table other := by
  simp [update, h]

theorem update_eq_self {table : Page → α} {page : Page} {a : α} (h : table page = a) :
    update table page a = table := by
  funext p
  by_cases here : p = page
  · rw [here, update_self, h]
  · rw [update_of_ne table here]

end Page

/-- What a page can show. -/
structure Catalog where
  page : Page
  columns : List Column
  sortable : List String
  filterable : List String
deriving DecidableEq

namespace Catalog

/-- The catalog in which every column may be sorted and filtered. -/
def unrestricted (page : Page) (columns : List Column) : Catalog :=
  ⟨page, columns, columns.map (·.key), columns.map (·.key)⟩

/-- The first column with a key. -/
def column? (c : Catalog) (key : String) : Option Column := Column.find? c.columns key

/-- The columns that every view of the page must keep, in catalog order. -/
def lockedColumns (c : Catalog) : List Column := c.columns.filter (·.locked)

/-- Whether a key may be sorted on. -/
def isSortable (c : Catalog) (key : String) : Bool := c.sortable.contains key

/-- Whether a key may be filtered on. -/
def isFilterable (c : Catalog) (key : String) : Bool := c.filterable.contains key

/-- Whether the catalog locks the column it has under a key. -/
def locks (c : Catalog) (key : String) : Bool := (c.column? key).any (·.locked)

/-- The columns of the peers page. -/
def peersColumns : List Column := [
  { Column.plain "peerAlias" "Peer Alias" .nodeAlias .text with locked := true },
  Column.plain "pubKey" "Public key" .longText .text,
  Column.plain "torqNodeAlias" "Torq Alias" .nodeAlias .text,
  { Column.plain "setting" "Reconnect" .text .tag with
    choices := [⟨"Always Reconnect", "AlwaysReconnect"⟩,
      ⟨"Disable Reconnect", "DisableReconnect"⟩] },
  { Column.plain "connectionStatus" "Status" .text .tag with
    choices := [⟨"Disconnected", "NodeConnectionStatusDisconnected"⟩,
      ⟨"Connected", "NodeConnectionStatusConnected"⟩] }]

/-- The peers page. Public keys can neither be sorted nor filtered. -/
def peers : Catalog :=
  let shown := ["peerAlias", "torqNodeAlias", "setting", "connectionStatus"]
  ⟨.peers, peersColumns, shown, shown⟩

/-- The states of a closed channel. -/
def channelStates : List String :=
  ["Opening", "Open", "Closing", "Cooperative Closed", "Local Force Closed",
    "Remote Force Closed", "Breach Closed", "Funding Cancelled Closed", "Abandoned Closed"]

/-- The columns of the closed channels page. -/
def closedChannelsColumns : List Column := [
  { Column.plain "peerAlias" "Peer Alias" .nodeAlias .text with locked := true },
  Column.plain "shortChannelId" "Short Channel ID" .longText .text,
  Column.plain "capacity" "Capacity" .numeric .number,
  Column.plain "lndShortChannelId" "LND Short Channel ID" .longText .text,
  Column.plain "fundingTransactionHash" "Funding Transaction" .longText .text,
  Column.plain "fundingBlockHeight" "Funding BlockHeight" .numeric .number,
  Column.plain "fundingBlockHeightDelta" "Funding BlockHeight Delta" .numeric .number,
  Column.plain "fundedOn" "Funding Date" .date .date,
  Column.plain "fundedOnSecondsDelta" "Funding Date Delta (Seconds)" .duration .duration,
  Column.plain "closingTransactionHash" "Closing Transaction" .longText .text,
  Column.plain "closingBlockHeight" "Closing BlockHeight" .numeric .number,
  Column.plain "closingBlockHeightDelta" "Closing BlockHeight Delta" .numeric .number,
  Column.plain "closedOn" "Closing Date" .date .date,
  Column.plain "closedOnSecondsDelta" "Closing Date Delta (Seconds)" .duration .duration,
  Column.plain "nodeName" "Node Name" .text .text,
  Column.plain "pubKey" "Public key" .longText .text,
  { Column.plain "status" "Status" .text .tag with choices := channelStates.map fun s => ⟨s, s⟩ }]

/-- The closed channels page. All but the public key can be sorted and filtered. -/
def closedChannels : Catalog :=
  let keys := (closedChannelsColumns.map (·.key)).filter (· != "pubKey")
  ⟨.closedChannels, closedChannelsColumns, keys, keys⟩

end Catalog

end TableView
