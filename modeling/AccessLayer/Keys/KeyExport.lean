import AccessLayer.Library.Csv
import AccessLayer.Library.Numerals

/-
  Exports of what is known of a key
  (`src/modules/keys/key-export.service.ts`).

  What the export collects is given, and so is the text of its
  JSON format.

  Main result: `read_serializeKeyExport`
-/

-- Rows
----

namespace AccessLayer

namespace Keys

namespace KeyExport

/- A trade, with its decimals as texts. -/
structure KeyExportTrade where
  id : String
  timestamp : String
  buyer : String
  quantity : String
  price : String
  paymentAsset : String
  value : String
  ledger : ℚ
  txHash : String

/- What a wallet held at some time. -/
structure KeyExportHolderSnapshot where
  id : String
  ownerAddress : String
  balance : String
  recordedAt : String

/- One receipt of revenue. -/
structure KeyExportRevenueEvent where
  id : String
  eventType : String
  actor : String
  amount : String
  createdAt : String

/- A milestone; what is unknown of it is left out. -/
structure KeyExportMilestoneEvent where
  id : String
  eventType : String
  ledger : Option ℚ
  txHash : Option String
  score : ℚ
  recordedAt : String

/- Totals over the life of the key. -/
structure KeyExportRevenueBreakdown where
  tradeCount : ℚ
  totalTradeVolume : String
  totalCreatorRoyalty : String
  totalDividendsDistributed : String

/- All that an export holds. -/
structure KeyExportData where
  keyId : String
  generatedAt : String
  trades : List KeyExportTrade
  holderSnapshots : List KeyExportHolderSnapshot
  revenueEvents : List KeyExportRevenueEvent
  revenueBreakdown : KeyExportRevenueBreakdown
  milestoneEvents : List KeyExportMilestoneEvent

/- The columns, in their order. -/
def KEY_EXPORT_CSV_FIELDS : List String :=
  ["record_type", "trade_id", "trade_timestamp", "buyer", "quantity", "price", "payment_asset",
    "trade_value", "ledger", "tx_hash", "snapshot_id", "owner_address", "balance",
    "snapshot_recorded_at", "revenue_event_id", "revenue_event_type", "revenue_actor",
    "revenue_amount", "revenue_created_at", "total_trade_count", "total_trade_volume",
    "total_creator_royalty", "total_dividends_distributed", "milestone_event_id",
    "milestone_event_type", "milestone_ledger", "milestone_tx_hash", "milestone_score",
    "milestone_recorded_at"]

/- A value of a cell: texts stay as they are. -/
inductive KeyExportValue where
  | text (s : String)
  | number (n : ℚ)

/- The values that a row has, by their fields. -/
abbrev KeyExportRow := List (String × KeyExportValue)

/- A row names its fields; the others are left empty. -/
def tradeRow (trade : KeyExportTrade) : KeyExportRow :=
  [("record_type", .text "trade"), ("trade_id", .text trade.id),
    ("trade_timestamp", .text trade.timestamp), ("buyer", .text trade.buyer),
    ("quantity", .text trade.quantity), ("price", .text trade.price),
    ("payment_asset", .text trade.paymentAsset), ("trade_value", .text trade.value),
    ("ledger", .number trade.ledger), ("tx_hash", .text trade.txHash)]

/- The row of a snapshot. -/
def holderSnapshotRow (snapshot : KeyExportHolderSnapshot) : KeyExportRow :=
  [("record_type", .text "holder_snapshot"), ("snapshot_id", .text snapshot.id),
    ("owner_address", .text snapshot.ownerAddress), ("balance", .text snapshot.balance),
    ("snapshot_recorded_at", .text snapshot.recordedAt)]

/- The row of a receipt. -/
def revenueEventRow (event : KeyExportRevenueEvent) : KeyExportRow :=
  [("record_type", .text "revenue_event"), ("revenue_event_id", .text event.id),
    ("revenue_event_type", .text event.eventType), ("revenue_actor", .text event.actor),
    ("revenue_amount", .text event.amount), ("revenue_created_at", .text event.createdAt)]

/- The one row of totals. -/
def revenueBreakdownRow (breakdown : KeyExportRevenueBreakdown) : KeyExportRow :=
  [("record_type", .text "revenue_breakdown"), ("total_trade_count", .number breakdown.tradeCount),
    ("total_trade_volume", .text breakdown.totalTradeVolume),
    ("total_creator_royalty", .text breakdown.totalCreatorRoyalty),
    ("total_dividends_distributed", .text breakdown.totalDividendsDistributed)]

/- An unknown ledger or transaction is an empty text. -/
def milestoneEventRow (event : KeyExportMilestoneEvent) : KeyExportRow :=
  [("record_type", .text "milestone_event"), ("milestone_event_id", .text event.id),
    ("milestone_event_type", .text event.eventType),
    ("milestone_ledger", event.ledger.elim (.text "") .number),
    ("milestone_tx_hash", .text (event.txHash.getD "")), ("milestone_score", .number event.score),
    ("milestone_recorded_at", .text event.recordedAt)]

/- The totals stand between the events. -/
def keyExportRows (data : KeyExportData) : List KeyExportRow :=
  data.trades.map tradeRow ++ data.holderSnapshots.map holderSnapshotRow ++
    data.revenueEvents.map revenueEventRow ++ [revenueBreakdownRow data.revenueBreakdown] ++
    data.milestoneEvents.map milestoneEventRow

-- Serialization
----

/- The formats that may be asked for. -/
inductive ExportFormat where
  | csv
  | json

/- A file to be downloaded. -/
structure SerializedKeyExport where
  content : String
  contentType : String
  fileName : String
  recordCount : ℕ

/- `String(value)`, or nothing where there is no value. -/
def valueText : Option KeyExportValue → List Char
  | none => []
  | some (.text s) => s.toList
  | some (.number n) => Doubles.numberText n

/- Quotes where a character calls for them. -/
def csvEscape (value : Option KeyExportValue) : List Char := Csv.escape (valueText value)

/- The header, and a line for each row. -/
def toCsv (rows : List KeyExportRow) : List Char :=
  let header := [','].intercalate (KEY_EXPORT_CSV_FIELDS.map String.toList)
  let lines := rows.map fun row =>
    [','].intercalate (KEY_EXPORT_CSV_FIELDS.map fun field => csvEscape (row.lookup field))
  ['\n'].intercalate (header :: lines)

/- The format names the extension too. -/
def ExportFormat.extension : ExportFormat → String
  | .csv => "csv"
  | .json => "json"

/- Colons and points of the time become dashes. -/
def buildKeyExportFileName (keyId : String) (format : ExportFormat) (generatedAt : String) :
    String :=
  let stamp := generatedAt.map fun c => if c = ':' ∨ c = '.' then '-' else c
  "key-export-" ++ keyId ++ "-" ++ stamp ++ "." ++ format.extension

/- The totals are not counted as a record. -/
def serializeKeyExport (json : String) (format : ExportFormat) (data : KeyExportData) :
    SerializedKeyExport where
  content :=
    match format with
    | .csv => String.ofList (toCsv (keyExportRows data))
    | .json => json
  contentType :=
    match format with
    | .csv => "text/csv; charset=utf-8"
    | .json => "application/json; charset=utf-8"
  fileName := buildKeyExportFileName data.keyId format data.generatedAt
  recordCount :=
    data.trades.length + data.holderSnapshots.length + data.revenueEvents.length +
      data.milestoneEvents.length

/- The fields of a row, in the order of the header. -/
def recordOf (row : KeyExportRow) : List (List Char) :=
  KEY_EXPORT_CSV_FIELDS.map fun field => valueText (row.lookup field)

/- The names of the columns need no quotes. -/
theorem toCsv_eq (rows : List KeyExportRow) :
    toCsv rows = Csv.write (KEY_EXPORT_CSV_FIELDS.map String.toList :: rows.map recordOf) := by
  have hHeader : (KEY_EXPORT_CSV_FIELDS.map String.toList).map Csv.escape =
      KEY_EXPORT_CSV_FIELDS.map String.toList := by decide +kernel
  simp only [toCsv, Csv.write, Csv.line, List.map_cons, hHeader, List.map_map, recordOf,
    Function.comp_def, csvEscape]

/- The CSV of an export is read as its header and its rows. -/
theorem read_serializeKeyExport (json : String) (data : KeyExportData) :
    Csv.read (serializeKeyExport json .csv data).content.toList =
      some (KEY_EXPORT_CSV_FIELDS.map String.toList :: (keyExportRows data).map recordOf) := by
  have hContent : (serializeKeyExport json .csv data).content.toList =
      toCsv (keyExportRows data) := String.toList_ofList
  rw [hContent, toCsv_eq]
  apply Csv.read_write (List.cons_ne_nil _ _)
  intro record hRecord
  have hLength : record.length = 29 := by
    rcases List.mem_cons.mp hRecord with rfl | hRow
    · rfl
    · rcases List.mem_map.mp hRow with ⟨row, -, rfl⟩
      rfl
  omega

end KeyExport

end Keys

end AccessLayer
