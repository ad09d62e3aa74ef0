import ScriptReader.Parser.Program
import ScriptReader.Scanner.Pool

/-! # Lending scanners out

Scanners of one pool are lent to owners, each under a name of its own, and come back to the pool
when they are returned or when a program has been read from them. An owner that asks for another
scanner returns the first one after it has the second.
-/

namespace ScriptReader

structure Lending where
  pool : Pool := {}
  lent : List (String × Scanner) := []

namespace Lending

inductive Request where
  | acquire (owner text : String)
  | next (owner : String)
  | reset (owner : String)
  | load (owner text : String)
  | release (owner : String)
  | parse (owner : String)
deriving DecidableEq, Repr

inductive Answer where
  | silent
  | token (token : Token)
  | parsed (program : Program) (diagnostics : List Diagnostic)

/-- The scanner that an owner holds. -/
def held? (lending : Lending) (owner : String) : Option Scanner := lending.lent.lookup owner

/-- Returns the scanner of an owner that holds one. -/
def giveBack (lending : Lending) (owner : String) : Lending :=
  match lending.held? owner with
  | some scanner =>
    ⟨lending.pool.release scanner, lending.lent.filter fun entry => entry.1 ≠ owner⟩
  | none => lending

/-- Notes that the scanner of an owner has changed. -/
def update (lending : Lending) (owner : String) (scanner : Scanner) : Lending :=
  { lending with
    lent := lending.lent.map fun entry => if entry.1 = owner then (owner, scanner) else entry }

/-- What a request answers and how it leaves the lending; an owner without a scanner can only
acquire one. -/
def perform? (lending : Lending) : Request → Option (Answer × Lending)
  | .acquire owner text =>
    let (scanner, pool) := lending.pool.acquire text
    let returned := giveBack { lending with pool } owner
    some (.silent, { returned with lent := (owner, scanner) :: returned.lent })
  | .next owner => do
    let scanner ← lending.held? owner
    some (.token scanner.next.1, lending.update owner scanner.next.2)
  | .reset owner => do
    let scanner ← lending.held? owner
    some (.silent, lending.update owner scanner.reset)
  | .load owner text => do
    let scanner ← lending.held? owner
    some (.silent, lending.update owner (scanner.load text))
  | .release owner => do
    let _ ← lending.held? owner
    some (.silent, lending.giveBack owner)
  | .parse owner => do
    let scanner ← lending.held? owner
    let (program, diagnostics) := ScriptReader.parse scanner
    some (.parsed program diagnostics, lending.giveBack owner)

/-- Returns every scanner that is still lent. -/
def closed (lending : Lending) : Pool :=
  lending.lent.foldl (fun pool entry => pool.release entry.2) lending.pool

end Lending

end ScriptReader
