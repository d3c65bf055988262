import Walkthrough.Fault
/-!
Pages: the calls that can be made of a page in a browser, and a page as anything that answers
them. A page has a state of its own; what it answers may depend on every call before.
-/

namespace Walkthrough

open Text.Utf8 (Bytes)

/-- How far loading has to come. -/
inductive LoadState where
  | parsed
  | loaded
  | idle
  deriving DecidableEq, Repr

/-- A call of a page; times are in milliseconds. Values that a step states are passed on as they
stand. -/
inductive PageCall where
  | addInitScript
  | goto (url : String) (state : LoadState) (timeout : Number)
  | url
  | waitForLoad (state : LoadState) (timeout : Number)
  | pause (time : Json)
  | waitForLeaving (path : String) (timeout : Number)
  | waitForEvent (name : Json) (routeKey : Option String) (timeout : Number)
  | anchors
  | screenshot (path : String) (fullPage : Json)
  | count (selector : String)
  | waitVisible (selector : String) (timeout : Number)
  | click (selector : String) (timeout : Number)
  | fill (selector : String) (value : Json) (timeout : Number)
  deriving DecidableEq, Repr

/-- What a call is answered with: the status of a response if there is one, the page's URL, the
anchors it shows, an image, or how many elements there are. -/
abbrev PageCall.Answer : PageCall → Type
  | goto .. => Option Int
  | url => String
  | anchors => List String
  | screenshot .. => Bytes
  | count _ => Int
  | _ => Unit

/-- A page with a clock. -/
structure Page (ι σ : Type) where
  /-- The answer to a call, or a fault, and the page's state after it. -/
  answer : (c : PageCall) → σ → Except Fault c.Answer × σ
  /-- A reading of the clock. -/
  clock : σ → Except Fault ι × σ

end Walkthrough
