import PerfRelay.Collection.Event
import PerfRelay.Json.Printer
import PerfRelay.Text.Utf8

/-!
# The console sink

Records can be written out, each with its tag as one line of JSON.  The outlet that they are written
to may run full; then it has taken what still fitted, and the rest of the batch is given up.

Main results:

- Theorem `Outlet.write_of_fits`: text that fits is written as a whole.
-/

namespace PerfRelay

/-- Where text is written to. -/
structure Outlet where
  /-- The bytes that were written. -/
  written : List UInt8
  /-- How many bytes it takes in all, if that is limited. -/
  capacity : Option Nat
  /-- What it says when it is full. -/
  fullText : String
  /-- What it says when it is flushed, if that fails. -/
  flushFault : Option String

namespace Outlet

/-- Whether so many bytes more can be written. -/
def fits (outlet : Outlet) (count : Nat) : Bool :=
  outlet.capacity.all (outlet.written.length + count ≤ ·)

/-- Writes bytes as far as they fit, and tells whether all of them did. -/
def write (outlet : Outlet) (bytes : List UInt8) : Bool × Outlet :=
  if outlet.fits bytes.length then (true, { outlet with written := outlet.written ++ bytes })
  else
    (false, { outlet with
      written := (outlet.written ++ bytes).take (outlet.capacity.getD 0) })

theorem write_of_fits {outlet : Outlet} {bytes : List UInt8} (h : outlet.fits bytes.length = true) :
    outlet.write bytes = (true, { outlet with written := outlet.written ++ bytes }) := by
  rw [write, if_pos h]

end Outlet

namespace Console

/-- The line of a record. -/
def line (tag : String) (record : Record) : String :=
  (Json.Value.object [("record", record), ("tag", .string tag)]).text ++ "\n"

/-- Writes records until one does not fit, and tells whether all of them did. -/
def writeAll (tag : String) : List Record → Outlet → Bool × Outlet
  | [], outlet => (true, outlet)
  | record :: records, outlet =>
    match outlet.write (Utf8.encode (line tag record)) with
    | (true, outlet) => writeAll tag records outlet
    | (false, outlet) => (false, outlet)

/-- Writes a batch and flushes the outlet. -/
def emit (tag : String) (records : List Record) (outlet : Outlet) : Noted Entry Outlet :=
  match writeAll tag records outlet with
  | (false, outlet) => ⟨outlet, [.warn s!"failed to write {tag} batch: {outlet.fullText}"]⟩
  | (true, outlet) =>
    match outlet.flushFault with
    | none => ⟨outlet, []⟩
    | some fault => ⟨outlet, [.warn s!"failed to flush {tag} batch: {fault}"]⟩

end Console

end PerfRelay
