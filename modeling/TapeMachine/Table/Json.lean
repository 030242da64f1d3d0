import TapeMachine.Rule.Json
import TapeMachine.Table

namespace TapeMachine.Table

open Json

def json (table : Table) : Value := .list (table.rules.map Rule.json)

def decode : Node → Decoded Table
  | .list items stop => Table.mk <$> Items.decodeAll Rule.decode stop items
  | node => node.refuse "a sequence"

end TapeMachine.Table
