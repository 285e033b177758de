import KernelLink.Machine.Creator
import KernelLink.Platform.Unix
import KernelLink.Shared.Installed
import KernelLink.Shared.Series
/-!
# A program and its shared kernel

A program that goes through steps, one after another: it installs the one shared kernel, looks
whether one is installed, and operates it. The kernel is a process of a machine.

Main definitions:
* `Tenancy.Ask`, `Tenancy.Answer`: the steps and what they give.
* `Tenancy`, `Tenancy.step`: the program and one step.
-/
namespace KernelLink.Stage

open Machine (Site)
open Shared (Deed Place Series)

/-- A shared kernel on a machine, used by one caller after another. -/
abbrev Tenant := Series Site

/-- A shared kernel before its first use. -/
def Tenant.new (config : LaunchConfig) (machine : Machine.World) : Tenant :=
  Series.new config ⟨Platform.Unix.manager, machine, none⟩

namespace Tenancy

/-- What a step asks for. -/
inductive Ask where
  /-- Install a kernel. -/
  | install (config : LaunchConfig)
  /-- Is one installed? -/
  | look
  /-- An operation of the installed kernel. -/
  | deed (deed : Deed)
  /-- A request that cannot be read, to the installed kernel. -/
  | malformed (cause : Json.ReadError)
  /-- Time. -/
  | sleep (ms : Nat)

/-- What a step gives. -/
inductive Answer where
  /-- Nothing. -/
  | nothing
  /-- A kernel is installed: the one that was installed first? -/
  | installed (isFirst : Bool)
  /-- Whether one is installed. -/
  | found (yes : Bool)
  /-- None is installed. -/
  | failed (cause : LinkError)
  /-- The result of an operation. -/
  | result (result : Shared.Result)
  /-- The request cannot be read. -/
  | malformed (cause : Json.ReadError)
  /-- It never ends. -/
  | never

end Tenancy

/-- A program with the place for its shared kernel. -/
structure Tenancy where
  /-- The machine on which kernels are launched. -/
  machine : Machine.World
  /-- The place. -/
  place : Place
  /-- The kernel that was installed first, once there is one. -/
  first : Option Nat
  /-- The kernels that are used, by their places among the candidates. -/
  tenants : List (Nat × Tenant)

namespace Tenancy

/-- Nothing is installed. -/
def new (machine : Machine.World) : Tenancy := ⟨machine, .new, none, []⟩

/-- A kernel by its place among the candidates. -/
def tenant? (t : Tenancy) (candidate : Nat) : Option Tenant :=
  match t.tenants.lookup candidate with
  | some tenant => some tenant
  | none => (t.place.candidates[candidate]?).map fun c => Tenant.new c.config t.machine

/-- Puts back a kernel that was used. -/
def put (t : Tenancy) (candidate : Nat) (tenant : Tenant) : Tenancy :=
  { t with tenants := (candidate, tenant) :: t.tenants.filter (·.1 != candidate) }

/-- Operates the installed kernel. -/
def onInstalled (t : Tenancy) (f : Tenant → Answer × Tenant) : Tenancy × Answer :=
  match t.place.visit .demand with
  | (some (.got candidate), place) =>
    let t := { t with place := place }
    match t.tenant? candidate with
    | some tenant => let (answer, tenant) := f tenant; (t.put candidate tenant, answer)
    | none => (t, .never)
  | (some (.failed cause), place) => ({ t with place := place }, .failed cause)
  | (_, place) => ({ t with place := place }, .never)

/-- Takes a step. -/
def step (t : Tenancy) : Ask → Tenancy × Answer
  | .install config =>
    match t.place.visit (.install config) with
    | (some (.got candidate), place) =>
      let first := t.first.getD candidate
      ({ t with place := place, first := some first }, .installed (candidate == first))
    | (_, place) => ({ t with place := place }, .never)
  | .look =>
    match t.place.visit .look with
    | (some (.got _), place) => ({ t with place := place }, .found true)
    | (_, place) => ({ t with place := place }, .found false)
  | .deed deed =>
    t.onInstalled fun tenant =>
      let (result, tenant) := tenant.perform Site.backend deed
      ((result.map .result).getD .never, tenant)
  | .malformed cause => t.onInstalled fun tenant => (.malformed cause, tenant)
  | .sleep ms => t.onInstalled fun tenant => (.nothing, tenant.sleep Site.backend ms)

end Tenancy
end KernelLink.Stage
