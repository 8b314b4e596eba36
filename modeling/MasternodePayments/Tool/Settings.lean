import MasternodePayments.SettingsFile.Document

/-!
# Settings of the tool

The settings say where the snapshot is and to which network it belongs. A settings file must give
both and must have a value for the parameters of the payment rules. The tool does not use those, yet
a file in which one of them has a wrong form is no settings file.
-/

namespace MasternodePayments.Tool

/-- Where the snapshot is and to which network it belongs. -/
structure Settings where
  dataDir : String := "."
  network : String := "mainnet"
deriving DecidableEq

namespace Settings

open SettingsFile

/-! ## Forms of parameters -/

/-- A condition on the values that a parameter can have. -/
abbrev Form := Value → Bool

namespace Form

def boolean : Form
  | .boolean _ => true
  | _ => false

/-- A whole number from `least` on and below `bound`. -/
def number (least bound : Int) : Form
  | .integer n => decide (least ≤ n ∧ n < bound)
  | _ => false

/-- A number of 64 bits without a sign, as far as a settings file can hold it. -/
def word64 : Form := number 0 (Int64.maxValue.toInt + 1)

def word32 : Form := number 0 UInt32.size

def signed32 : Form := number Int32.minValue.toInt (Int32.maxValue.toInt + 1)

/-- A list that starts with so many single bytes. -/
def bytes (count : Nat) : Form
  | .list items => decide (count ≤ items.length) && (items.take count).all (number 0 UInt8.size)
  | _ => false

/-- Values that fit the fields of a record in their order, from the first on; the record may have
more fields, and there may be more values. -/
def inOrder (fields : List (String × Form)) (items : List Value) : Bool :=
  (fields.zip items).all fun ((_, form), v) => form v

/-- A record with these fields, none of which has to be there: a table in which those that are there
have their form, or a list of values for the first fields. A moment gives no field at all. -/
def record (fields : List (String × Form)) : Form
  | .table _ entries => fields.all fun (name, form) => (Table.get? entries name).all form
  | .list items => inOrder fields items
  | .rows tables => inOrder fields (tables.map (.table .heading))
  | .moment => true
  | _ => false

end Form

def networkForm : Form :=
  .record
    [("network_magic", .bytes 4),
      ("is_main_network", .boolean),
      ("last_pow_block", .word64),
      ("active_protocol_version", .word32),
      ("min_protocol_before_enforcement", .word32),
      ("budget_cycle_blocks", .word64)]

def paymentsForm : Form :=
  .record
    [("signatures_required", .word32),
      ("signatures_total", .word64),
      ("future_vote_window", .word64),
      ("population_scale_percent", .word64),
      ("min_retention_blocks", .word64),
      ("schedule_lookahead", .word64),
      ("rank_reference_offset", .word64),
      ("misbehaviour_score", .signed32),
      ("masternode_count_drift", .word64),
      ("lite_mode", .boolean),
      ("network", networkForm)]

/-! ## Settings files -/

/-- The settings in a table, if it has all that is needed. -/
def ofTable? (t : Table) : Option Settings :=
  match t.get? "data_dir", t.get? "network", t.get? "payments" with
  | some (.text dataDir), some (.text network), some payments =>
    if paymentsForm payments then some ⟨dataDir, network⟩ else none
  | _, _, _ => none

/-- The settings in the text of a settings file, if it is one. -/
def ofText? (text : String) : Option Settings := (Table.ofText? text).bind ofTable?

end Settings
end MasternodePayments.Tool
