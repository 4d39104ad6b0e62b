import BucketCare.Proofs.Command.Leading
import BucketCare.Proofs.Paging.Continuation

/-!
# Listings that are stopped

A visitor may stop a listing on any page. What it has come to then is what it comes to over the
contents of all pages, since it is handed no content behind the one that it stops on; and the pages
that were fetched are those that it was handed, and no others.

## Main definitions

* `Source.Yields` — a source yields some pages to fetches, one behind the other
* `Visit.across` — what a visitor comes to over some contents, and how many of them it is handed

## Main results

* `Cursor.walk_of_yields` — how a listing is read on from a cursor
* `Command.visiting_of_yields` — how a listing is read from its start
-/

namespace BucketCare

variable {σ α β τ : Type}

/-- A source yields some pages, each to a fetch that goes on behind the page before it, to a number
of requests in all. -/
inductive Source.Yields (source : Source σ α τ) :
    Option τ → σ → List (Page α τ) → Nat → σ → Prop
  | nil {token : Option τ} {state : σ} : Yields source token state [] 0 state
  | cons {token : Option τ} {state next final : σ} {page : Page α τ} {pages : List (Page α τ)}
      {tries count : Nat}
      (hfetch : (Cursor.fetch source token).run state = ((.ok page, tries), next))
      (hrest : Yields source page.next next pages count final) :
      Yields source token state (page :: pages) (tries + count) final

/-- Pages that a source serves are yielded, each to one request. -/
theorem Source.Serves.yields {source : Source σ α τ} {pages : List (Page α τ)} {token : Option τ}
    {state : σ} (h : source.Serves pages token state) :
    ∃ final, source.Yields token state pages pages.length final := by
  induction pages generalizing token state with
  | nil => exact ⟨state, .nil⟩
  | cons page pages ih =>
    obtain ⟨state', hrun, hrest⟩ := h
    obtain ⟨final, hyields⟩ := ih hrest
    refine ⟨final, ?_⟩
    rw [List.length_cons, Nat.add_comm]
    exact .cons (Cursor.fetch_of_ok hrun) hyields

/-- The pages say how many requests they took. -/
theorem Source.Yields.count_unique {source : Source σ α τ} {token : Option τ}
    {state final final' : σ} {pages : List (Page α τ)} {count count' : Nat}
    (h : source.Yields token state pages count final)
    (h' : source.Yields token state pages count' final') : count = count' := by
  induction h generalizing count' with
  | nil =>
    cases h'
    rfl
  | cons hfetch _ ih =>
    cases h' with
    | cons hfetch' hrest' =>
      cases hfetch.symm.trans hfetch'
      rw [ih hrest']

theorem Source.Yields.exists_fetch {source : Source σ α τ} {token : Option τ} {state final : σ}
    {pages : List (Page α τ)} {count : Nat} (h : source.Yields token state pages count final)
    (hpages : pages ≠ []) : ∃ page tries next,
      (Cursor.fetch source token).run state = ((.ok page, tries), next) := by
  cases h with
  | nil => exact absurd rfl hpages
  | cons hfetch => exact ⟨_, _, _, hfetch⟩

namespace Visit

variable {visit : α → β → Visit β} {content : α} {b b' : β}

/-- What a visitor comes to over some contents, and how many of them it is handed. -/
def across (visit : α → β → Visit β) : List α → β → Visit β × Nat
  | [], b => (.more b, 0)
  | content :: rest, b =>
    match visit content b with
    | .stop b => (.stop b, 1)
    | .more b => ((across visit rest b).1, (across visit rest b).2 + 1)

theorem across_cons_of_stop (h : visit content b = .stop b') (rest : List α) :
    across visit (content :: rest) b = (.stop b', 1) := by
  rw [across, h]

theorem across_cons_of_more (h : visit content b = .more b') (rest : List α) :
    across visit (content :: rest) b =
      ((across visit rest b').1, (across visit rest b').2 + 1) := by
  rw [across, h]

end Visit

namespace Cursor

variable {source : Source σ α τ} {visit : α → β → Visit β} {cursor cursor' : Cursor α τ}
variable {page last : Page α τ} {earlier : List (Page α τ)} {state state' final : σ} {b b' : β}
variable {count budget : Nat}

/-- The next page is handed to the visitor. -/
theorem walk_of_next (hnext : cursor.hasNext = true)
    (h : (next source cursor).run state = ((.ok page, cursor'), state')) (budget : Nat) :
    (walk source (fun content b => return (none, visit content b)) (budget + 1) cursor b).run
      state = (match visit page.content b with
        | .stop b => return (none, b, cursor')
        | .more b => walk source (fun content b => return (none, visit content b)) budget cursor'
          b : StateM σ _).run state' := by
  have hpage {γ : Type} (f : Except Error (Page α τ) × Cursor α τ → StateM σ γ) :
      (next source cursor >>= f).run state = (f (.ok page, cursor')).run state' := by
    rw [StateT.run_bind, h]
    rfl
  rw [walk, hnext, Bool.not_true, if_neg Bool.false_ne_true, hpage]
  dsimp only
  rw [pure_bind]
  cases visit page.content b <;> rfl

theorem walk_of_ended (hnext : cursor.hasNext = false) (budget : Nat) :
    (walk source (fun content b => return (none, visit content b)) budget cursor b).run state =
      ((none, b, cursor), state) := by
  cases budget with
  | zero => rfl
  | succ budget =>
    rw [walk, hnext]
    rfl

variable (cursor visit b) in
/-- From where a fetch comes next, a listing is read to its end or to where the visitor stops it.
What is fetched is what the visitor is handed. -/
theorem walk_of_yields (hwait : cursor.waiting = none) (hmore : cursor.more = true)
    (hyields : source.Yields cursor.token state (earlier ++ [last]) count final)
    (hgoes : ∀ page ∈ earlier, page.continues = true)
    (hends : last.continues = false ∨
      ∃ b', (Visit.across visit ((earlier ++ [last]).map Page.content) b).1 = .stop b')
    (hbudget : (earlier ++ [last]).length ≤ budget) :
    let visited := Visit.across visit ((earlier ++ [last]).map Page.content) b
    ∃ cursor' state' sent,
      (walk source (fun content b => return (none, visit content b)) budget cursor b).run state =
        ((none, visited.1.state, cursor'), state') ∧
      source.Yields cursor.token state ((earlier ++ [last]).take visited.2) sent state' ∧
      cursor'.fetches = cursor.fetches + sent ∧
      cursor'.returned = cursor.returned + visited.2 ∧
      ∀ b', visited.1 = .more b' → cursor'.hasNext = false := by
  have hnext : cursor.hasNext = true := by simp [hasNext, hmore]
  obtain ⟨budget, rfl⟩ : ∃ n, budget = n + 1 := ⟨budget - 1, by simp at hbudget; omega⟩
  -- Each step hands out the first of the pages that are left.
  induction earlier generalizing cursor b state count budget with
  | nil =>
    cases hyields with
    | @cons _ _ behind _ _ _ tries _ hfetch hrest =>
      rw [walk_of_next hnext (next_of_fetched hwait hmore hfetch)]
      cases hvisit : visit last.content b with
      | stop b' =>
        simp only [List.nil_append, List.map_singleton, Visit.across_cons_of_stop hvisit]
        exact ⟨_, behind, _, rfl, .cons hfetch .nil, rfl, rfl, by simp⟩
      | more b' =>
        simp only [List.nil_append, List.map_singleton, Visit.across_cons_of_more hvisit] at hends ⊢
        have hlast : last.continues = false := by simpa [Visit.across] using hends
        exact ⟨_, behind, _, walk_of_ended (by simp [hasNext, hlast]) budget, .cons hfetch .nil,
          rfl, rfl, fun _ _ => by simp [hasNext, hlast]⟩
  | cons page earlier ih =>
    -- This page goes on, so what is left is read from a cursor behind it.
    cases hyields with
    | @cons _ _ behind _ _ _ tries _ hfetch hrest =>
      obtain ⟨hpage, hgoes⟩ := List.forall_mem_cons.mp hgoes
      rw [walk_of_next hnext (next_of_fetched hwait hmore hfetch)]
      cases hvisit : visit page.content b with
      | stop b' =>
        simp only [List.cons_append, List.map_cons, Visit.across_cons_of_stop hvisit]
        exact ⟨_, behind, _, rfl, .cons hfetch .nil, rfl, rfl, by simp⟩
      | more b' =>
        simp only [List.cons_append, List.map_cons, Visit.across_cons_of_more hvisit] at hends ⊢
        obtain ⟨budget, rfl⟩ : ∃ n, budget = n + 1 := ⟨budget - 1, by simp at hbudget; omega⟩
        obtain ⟨cursor', state', sent, hwalk, hsent, hfetches, hreturned, hended⟩ :=
          ih ⟨none, page.next, page.continues, cursor.fetches + tries, cursor.returned + 1⟩ b' rfl
            hpage hrest hgoes hends (by simp [hasNext, hpage]) budget
            (Nat.le_of_succ_le_succ hbudget)
        refine ⟨cursor', state', tries + sent, hwalk, .cons hfetch hsent, ?_, ?_, hended⟩
        · rw [hfetches, Nat.add_assoc]
        · rw [hreturned, Nat.add_assoc, Nat.add_comm 1]

/-- A listing is read on alike from its start, where the first page was fetched, and from where that
fetch comes next. -/
theorem walk_started {tries : Nat} {behind : σ}
    (hfetch : (fetch source none).run state = ((.ok page, tries), behind)) (budget : Nat) :
    (walk source (fun content b => return (none, visit content b)) (budget + 1)
        ⟨some page, page.next, page.continues, tries, 0⟩ b).run behind =
      (walk source (fun content b => return (none, visit content b)) (budget + 1) unread b).run
        state := by
  rw [walk_of_next rfl (next_of_waiting rfl), walk_of_next rfl (next_of_fetched rfl rfl hfetch)]
  simp only [unread, Nat.zero_add]

end Cursor

/-- A listing is read from its start to its end or to where the visitor stops it. What is fetched is
what the visitor is handed. -/
theorem Command.visiting_of_yields {source : Source σ α τ} {visit : α → β → Visit β}
    {earlier : List (Page α τ)} {last : Page α τ} {count : Nat} {state final : σ} {b : β}
    (hyields : source.Yields none state (earlier ++ [last]) count final)
    (hgoes : ∀ page ∈ earlier, page.continues = true)
    (hends : last.continues = false ∨
      ∃ b', (Visit.across visit ((earlier ++ [last]).map Page.content) b).1 = .stop b')
    (hcount : (earlier ++ [last]).length ≤ Run.allPages) :
    let visited := Visit.across visit ((earlier ++ [last]).map Page.content) b
    ∃ state' sent,
      (visiting source (fun content b => return (none, visit content b)) b).run state =
        (⟨none, visited.1.state, visited.2⟩, state') ∧
      source.Yields none state ((earlier ++ [last]).take visited.2) sent state' := by
  obtain ⟨page, tries, behind, hfetch⟩ : ∃ page tries behind,
      (Cursor.fetch source none).run state = ((.ok page, tries), behind) :=
    hyields.exists_fetch (by simp)
  obtain ⟨budget, hbudget⟩ : ∃ n, Run.allPages = n + 1 := ⟨Run.allPages - 1, by decide⟩
  rw [hbudget] at hcount
  obtain ⟨cursor, state', sent, hwalk, hsent, -, hreturned, -⟩ :=
    Cursor.unread.walk_of_yields visit b rfl rfl hyields hgoes hends hcount
  refine ⟨state', sent, ?_, hsent⟩
  -- The first page was fetched before the walk begins, which then reads as if it fetched it.
  rw [visiting, StateT.run_bind, Cursor.start_of_fetched hfetch, hbudget]
  change (Cursor.walk source _ (budget + 1) _ b >>= fun _ => _).run behind = _
  rw [StateT.run_bind, Cursor.walk_started hfetch, hwalk]
  simp only [Cursor.unread, Nat.zero_add] at hreturned
  rw [← hreturned]
  rfl

end BucketCare
