import Emm.Procedure
import Emm.Table

/-!
The EMM contexts of all UEs, the index that finds a UE by its IMSI, and the registry in which the
application layer keeps the identities confirmed to it.
-/

namespace Emm

/-- What the EMM layer knows about one UE. -/
structure Context where
  ue : UeId
  state : EmmState
  imsi : Option Imsi := none
  imei : Option Imei := none
  imeisv : Option Imeisv := none
  security : SecurityContext := {}
  /-- Why the network removes the context, once it does. -/
  cause : Option EmmCause := none
  procedures : Procedures := {}
deriving DecidableEq

/-- Contexts by UE, owners by IMSI, and the identifier of the next procedure. -/
structure Store where
  contexts : Table UeId Context := {}
  index : Table Imsi UeId := {}
  nextProcedure : ProcedureId := ⟨1⟩

namespace Store

def context? (s : Store) (ue : UeId) : Option Context := s.contexts.get? ue

def contains (s : Store) (ue : UeId) : Bool := s.contexts.contains ue

def size (s : Store) : Nat := s.contexts.size

def owner? (s : Store) (imsi : Imsi) : Option UeId := s.index.get? imsi

/-- Makes `ue` the owner of `imsi`, whoever owned it before. -/
def claim (s : Store) (imsi : Imsi) (ue : UeId) : Store :=
  { s with index := s.index.insert imsi ue }

/-- Stores a context in place of an earlier one of the same UE, and indexes the IMSI it carries. -/
def insert (s : Store) (c : Context) : Store :=
  let s := match c.imsi with
    | some imsi => s.claim imsi c.ue
    | none => s
  { s with contexts := s.contexts.insert c.ue c }

/-- Changes the context of `ue`, if there is one. -/
def modify (s : Store) (ue : UeId) (f : Context → Context) : Store :=
  { s with contexts := s.contexts.modify ue f }

/-- Removes the context of `ue` and every index entry that names it. Without a context nothing
changes, the index included. -/
def remove (s : Store) (ue : UeId) : Store :=
  if s.contains ue then
    { s with
      contexts := s.contexts.erase ue
      index := s.index.filterValues fun owner => owner ≠ ue }
  else s

/-- The two halves of a context that is removed while another party holds it: what the remover
gets, and what is left with the holder. -/
structure Parting where
  removed : Context
  leftover : Context

/-- The holder first finishes its own change; then the contents go to the remover, and a blank
context in the same state stays behind. -/
def part (c : Context) (change : Context → Context) : Parting :=
  let c := change c
  { removed := c, leftover := { ue := c.ue, state := c.state } }

/-- Takes the identifier of a new procedure. -/
def takeProcedureId (s : Store) : ProcedureId × Store :=
  (s.nextProcedure, { s with nextProcedure := s.nextProcedure.next })

/-- Puts a new specific procedure in place of the UE's present one. An identifier is taken even if
the UE has no context. -/
def beginSpecific (s : Store) (ue : UeId) (kind : SpecificKind) : Option ProcedureId × Store :=
  let (id, s) := s.takeProcedureId
  if s.contains ue then
    (some id, s.modify ue fun c =>
      { c with procedures := { c.procedures with specific := some { id, kind } } })
  else (none, s)

end Store

/-- The application layer's table of owners by IMSI. -/
structure Registry where
  owners : Table Imsi UeId := {}

namespace Registry

def size (r : Registry) : Nat := r.owners.size

def owner? (r : Registry) (imsi : Imsi) : Option UeId := r.owners.get? imsi

def register (r : Registry) (imsi : Imsi) (ue : UeId) : Registry := ⟨r.owners.insert imsi ue⟩

def names (r : Registry) (ue : UeId) : Bool := r.owners.anyValue fun owner => owner = ue

/-- Removes every entry of the UE. -/
def unregister (r : Registry) (ue : UeId) : Registry :=
  ⟨r.owners.filterValues fun owner => owner ≠ ue⟩

end Registry

end Emm
