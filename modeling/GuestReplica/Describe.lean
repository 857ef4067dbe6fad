import GuestReplica.Replica

set_option autoImplicit false

/-!
# The text of a replica

A replica has a text for developers, which names the fields of all its parts.  A
pool with pages has none: it would have to show where the host mapped them.
-/

namespace GuestReplica

namespace Describe

/-- What an access mode is called in texts. -/
def modeName : Access.Mode → String
  | .read => "Read"
  | .computeWrite => "ComputeWrite"
  | .guestDraw => "GuestDrawReadWrite"
  | .transferDestination => "TransferDestination"

/-- A handle in lower-case hexadecimal digits. -/
def handle (h : Handle) : String := "0x" ++ String.ofList (Nat.toDigits 16 h)

/-- Texts between brackets. -/
def list (items : List String) : String := "[" ++ ", ".intercalate items ++ "]"

/-- A value that may be missing. -/
def option {α : Type} (text : α → String) : Option α → String
  | some a => "Some(" ++ text a ++ ")"
  | none => "None"

/-- Named fields between braces. -/
def fields (name : String) (items : List (String × String)) : String :=
  name ++ " \x7b " ++ ", ".intercalate (items.map fun item => item.1 ++ ": " ++ item.2) ++ " \x7d"

/-- A span by its ends. -/
def span (s : Span) : String := toString s.start ++ ".." ++ toString s.stop

/-- A truth value. -/
def flag (b : Bool) : String := if b then "true" else "false"

/-- The text of a tracker. -/
def tracker (t : Access.Tracker) : String :=
  fields "AccessState"
    [("size", toString t.size),
     ("current", modeName t.mode),
     ("pending_write", span t.pending)]

/-- The text of a store. -/
def store (s : Store) : String :=
  fields "BackingStore"
    [("buffer", handle s.buffer),
     ("size", toString s.size),
     ("memory", list (s.memory.map handle)),
     ("memory_type_index", toString s.memoryType),
     ("strategy", s.strategy.name)]

/-- The text of a pool that has no pages. -/
def emptyPool (p : Staging.Pool) : String :=
  fields "StagingPool"
    [("page_size", toString p.config.pageSize),
     ("host_visible_memory_types", toString p.config.hostVisible.toNat),
     ("host_coherent_memory_types", toString p.config.hostCoherent.toNat),
     ("non_coherent_atom_size", toString p.config.flushUnit),
     ("max_pages", option toString p.config.maxPages),
     ("pages", list []),
     ("submitted", list (p.submitted.map toString)),
     ("writable", list (p.writable.map toString)),
     ("current", option toString p.current),
     ("current_used", toString p.used),
     ("current_flushed", toString p.flushed)]

end Describe

/-- The text of a replica whose pool, if it still has one, has no pages. -/
def Replica.describe? (r : Replica) : Option String :=
  if r.pool.all (·.pages.isEmpty) then
    some <| "SharedMemory \x7b " ++ ", ".intercalate
      ["backing_store: " ++ Describe.option Describe.store r.store,
       "staging_pool: " ++ Describe.option Describe.emptyPool r.pool,
       "access: " ++ Describe.tracker r.access,
       "page_size_log2: " ++ toString r.pageBits,
       "tessellation_shader: " ++ Describe.flag r.tessellation] ++ ", .. \x7d"
  else
    none

end GuestReplica
