/-!
Symbol tables.  A table keeps its names in the order in which they were first
bound; binding a name again changes its value and not its place.
-/

namespace Msp430

structure SymbolTable where
  bindings : List (String × Int)
  deriving Repr, DecidableEq

namespace SymbolTable

def empty : SymbolTable :=
  { bindings := [] }

def find? (table : SymbolTable) (name : String) : Option Int :=
  table.bindings.lookup name

def contains (table : SymbolTable) (name : String) : Bool :=
  (table.find? name).isSome

def names (table : SymbolTable) : List String :=
  table.bindings.map Prod.fst

/-- Bind a name, in place if it is bound already. -/
def insert (table : SymbolTable) (name : String) (value : Int) : SymbolTable :=
  if table.contains name then
    { bindings := table.bindings.map
        (fun binding => if binding.1 = name then (name, value) else binding) }
  else
    { bindings := table.bindings ++ [(name, value)] }

end SymbolTable
end Msp430
