import BucketCare.Error

/-!
# Listings page by page

A listing is read one page at a time. Each page says whether the store holds more and how to ask
for it. The first page is fetched when the listing starts, each later one when it is asked for,
and a fetch that failed in a passing way is tried once more. A page that claims more but gives
nothing to continue from ends the listing.

A source of pages changes a state of its own as it answers, so that scripts, stores and logs are
all sources.

## Main definitions

* `Page` — one page of a listing
* `Source` — what answers requests for pages
* `Cursor` — how far a listing has been read
* `Cursor.start`, `Cursor.next` — the two operations on a listing
* `Cursor.walk` — a listing read to its end or to where a visitor stops it
-/

namespace BucketCare

/-- One page of a listing: its content, whether the store holds more, and where to continue. -/
structure Page (α τ : Type) where
  content : α
  truncated : Bool
  next : Option τ
  deriving DecidableEq, Repr

/-- The listing goes on behind this page. -/
def Page.continues {α τ : Type} (page : Page α τ) : Bool := page.truncated && page.next.isSome

/-- What answers requests for pages: the page behind a token, or the first page. -/
abbrev Source (σ α τ : Type) := Option τ → StateM σ (Except Error (Page α τ))

/-- How far a listing has been read. -/
structure Cursor (α τ : Type) where
  /-- The first page, until it is handed out. -/
  waiting : Option (Page α τ)
  /-- Where the next fetch continues. -/
  token : Option τ
  /-- The listing goes on behind the last page that was fetched. -/
  more : Bool
  /-- The requests sent so far. -/
  fetches : Nat
  /-- The pages handed out so far. -/
  returned : Nat
  deriving DecidableEq, Repr

namespace Cursor

variable {σ α τ : Type}

/-- Fetch a page, once more if the first try failed in a passing way, and count the requests. -/
def fetch (source : Source σ α τ) (token : Option τ) :
    StateM σ (Except Error (Page α τ) × Nat) := do
  match ← source token with
  | .ok page => return (.ok page, 1)
  | .error e => if e.isRetryable then return (← source token, 2) else return (.error e, 1)

/-- Start a listing by fetching its first page. -/
def start (source : Source σ α τ) : StateM σ (Except Error (Cursor α τ)) := do
  match ← fetch source none with
  | (.ok page, n) => return .ok ⟨some page, page.next, page.continues, n, 0⟩
  | (.error e, _) => return .error e

/-- Another page can be handed out. -/
def hasNext (cursor : Cursor α τ) : Bool := cursor.waiting.isSome || cursor.more

/-- The next page. The first is the one that `start` fetched; each later one is one request. A
failure changes only the count of requests. -/
def next (source : Source σ α τ) (cursor : Cursor α τ) :
    StateM σ (Except Error (Page α τ) × Cursor α τ) := do
  match cursor.waiting with
  | some page => return (.ok page, { cursor with waiting := none, returned := cursor.returned + 1 })
  | none =>
    if !cursor.more then return (.error .noMoreElements, cursor)
    else match ← fetch source cursor.token with
      | (.ok page, n) =>
        return (.ok page,
          ⟨none, page.next, page.continues, cursor.fetches + n, cursor.returned + 1⟩)
      | (.error e, n) => return (.error e, { cursor with fetches := cursor.fetches + n })

end Cursor

/-- What a visitor of pages wants next. -/
inductive Visit (β : Type) where
  /-- Go on to the next page. -/
  | more (state : β)
  /-- Read no further page. -/
  | stop (state : β)
  deriving Repr

/-- What the visitor has come to. -/
def Visit.state {β : Type} : Visit β → β
  | .more b | .stop b => b

namespace Cursor

variable {σ α τ β : Type}

/-- Read a listing on from a cursor, at most a number of pages, and hand each page to a visitor,
until the listing ends, the visitor stops it, or a fetch or the visitor fails. The answer holds
what the visitor had come to, and the cursor at that moment. -/
def walk (source : Source σ α τ) (visit : α → β → StateM σ (Option Error × Visit β)) :
    Nat → Cursor α τ → β → StateM σ (Option Error × β × Cursor α τ)
  | 0, cursor, b => return (none, b, cursor)
  | budget + 1, cursor, b => do
    if !cursor.hasNext then return (none, b, cursor)
    else match ← next source cursor with
      | (.error e, cursor) => return (some e, b, cursor)
      | (.ok page, cursor) =>
        match ← visit page.content b with
        | (some e, visited) => return (some e, visited.state, cursor)
        | (none, .stop b) => return (none, b, cursor)
        | (none, .more b) => walk source visit budget cursor b

end Cursor

end BucketCare
