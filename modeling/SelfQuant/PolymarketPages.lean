import Mathlib.Data.List.Induction

namespace SelfQuant.Polymarket

open Option List

def kMaximumPages : Nat := 20

def kMaximumOpenOrders : Nat := 500

def kMaximumCursorBytes : Nat := 256

/-- What the fields of an object say; an order that is not live or is matched in full is `closed`. -/
inductive PageItem (α : Type)
  | malformed
  | closed
  | live (order : α)

structure Page (α : Type) where
  items : List (PageItem α)
  (malformed isArray : Bool := false)
  nextCursor : Option String := none

structure Pagination where
  (pageCount itemCount : Nat := 0)
  complete : Bool := false
  cursor : String := ""
  seen : List String := []

variable {α : Type} (wanted : α → Bool)

def parseItems : Nat → List (PageItem α) → Option (List α)
  | _, [] => some []
  | 0, _ :: _ | _, .malformed :: _ => none
  | room + 1, .closed :: items => parseItems room items
  | room + 1, .live order :: items => (parseItems room items).map (order :: ·)

namespace Page

def cursor (page : Page α) : String := page.nextCursor.getD ""

def Ends (page : Page α) : Prop := page.isArray ∨ page.cursor = "" ∨ page.cursor = "LTE="

instance (page : Page α) : Decidable page.Ends := inferInstanceAs (Decidable (_ ∨ _))

def orders (page : Page α) : List α := page.items.filterMap fun
  | .live order => some order
  | _ => none

end Page

/-- `none` is `Malformed` or `BoundsExceeded`, which end the query alike. -/
def parseOpenOrderSnapshots (p : Pagination) (page : Page α) : Option (Pagination × List α) :=
  if p.complete ∨ kMaximumPages ≤ p.pageCount ∨ page.malformed then none
  else (parseItems (kMaximumOpenOrders - p.itemCount) page.items).bind fun parsed =>
    let counted := { p with pageCount := p.pageCount + 1, itemCount := p.itemCount + page.items.length }
    let last := some ({ counted with complete := true, cursor := "" }, parsed)
    if page.Ends ∨ kMaximumPages ≤ counted.pageCount ∨ kMaximumOpenOrders ≤ counted.itemCount then last
    else if kMaximumCursorBytes < page.cursor.utf8ByteSize then none
    else if page.cursor ∈ p.seen then last
    else some ({ counted with cursor := page.cursor, seen := p.seen ++ [page.cursor] }, parsed)

/-- The query reports every error but `unsupported` as `NotReady`. -/
inductive AdapterResult
  | ok | unsupported | failed
  deriving DecidableEq

inductive QueryEvent (α : Type)
  | openOrder (order : α)
  | complete (result : AdapterResult)
  deriving DecidableEq

inductive Delivery
  | whole
  | badScale (sent : Nat)
  | queueFull (sent : Nat)

structure Response (α : Type) where
  failed : Bool := false
  page : Page α
  delivery : Delivery := .whole
  submitted : AdapterResult := .ok

structure OpenQuery (α : Type) where
  waiting : Option Pagination := some {}
  asked : List String := [""]
  events : List (QueryEvent α) := []

def reported (orders : List α) : List (QueryEvent α) := (orders.filter wanted).map .openOrder

/-- A response; only the orders are `wanted` that are in the scope of the query. -/
def OpenQuery.respond (q : OpenQuery α) (r : Response α) : OpenQuery α :=
  let finish (told : List (QueryEvent α)) (result : AdapterResult) : OpenQuery α :=
    { q with waiting := none, events := q.events ++ told ++ [.complete result] }
  match q.waiting with
  | none => q
  | some p =>
    match if r.failed then none else parseOpenOrderSnapshots p r.page with
    | none => finish [] .failed
    | some (next, parsed) =>
      match r.delivery with
      | .queueFull sent => { q with waiting := none, events := q.events ++ (reported wanted parsed).take sent }
      | .badScale sent => finish ((reported wanted parsed).take sent) .failed
      | .whole =>
        if next.complete then finish (reported wanted parsed) .ok
        else if r.submitted = .ok then ⟨next, q.asked ++ [next.cursor], q.events ++ reported wanted parsed⟩
        else finish (reported wanted parsed) r.submitted

def run (responses : List (Response α)) : OpenQuery α := responses.foldl (OpenQuery.respond wanted) {}

/-- The page is not the end of the chain, and still no further one is asked for. -/
def StopsShort (p : Pagination) (page : Page α) : Prop :=
  ¬page.Ends ∧ (kMaximumPages ≤ p.pageCount + 1 ∨ kMaximumOpenOrders ≤ p.itemCount + page.items.length ∨
    page.cursor ∈ p.seen)

variable {wanted} {p next : Pagination} {page : Page α} {parsed : List α} {q : OpenQuery α} {r last : Response α}
  {responses : List (Response α)}

theorem parseItems_eq {room : Nat} {items : List (PageItem α)} (h : parseItems room items = some parsed) :
    ({ items } : Page α).orders = parsed := by
  fun_induction parseItems room items generalizing parsed with
  | case1 => exact some.inj h
  | case2 | case3 => cases h
  | case4 room items ih => exact ih h
  | case5 room order items ih =>
    obtain ⟨rest, hrs, rfl⟩ := map_eq_some_iff.mp h
    exact congrArg (order :: ·) (ih hrs)

theorem parseOpenOrderSnapshots_eq (h : parseOpenOrderSnapshots p page = some (next, parsed)) :
    page.orders = parsed ∧ if next.complete then page.Ends ∨ StopsShort p page else next.cursor = page.cursor := by
  unfold parseOpenOrderSnapshots at h
  obtain ⟨hbds, h⟩ := ite_none_left_eq_some.mp h
  obtain ⟨orders, hits, h⟩ := bind_eq_some_iff.mp h
  have hop : p.complete = false := by simp_all
  have hords := parseItems_eq hits
  have hstops (hcap : ¬page.Ends → _) : page.Ends ∨ StopsShort p page :=
    (em page.Ends).imp_right fun hmo => ⟨hmo, hcap hmo⟩
  dsimp only at h
  split_ifs at h with hla hln hsn
  · cases h
    exact ⟨hords, hstops fun hmo => (hla.resolve_left hmo).imp_right .inl⟩
  · cases h
    exact ⟨hords, hstops fun _ => .inr (.inr hsn)⟩
  · cases h
    exact ⟨hords, by simp [hop]⟩

theorem complete_notMem_reported {orders : List α} : .complete .ok ∉ reported wanted orders := by simp [reported]

theorem respond_cases (wanted : α → Bool) (r : Response α) (h : q.waiting = some p) :
    (∃ next, q.respond wanted r = ⟨some next, q.asked ++ [r.page.cursor], q.events ++ reported wanted r.page.orders⟩) ∨
      ∃ told, q.respond wanted r = ⟨none, q.asked, q.events ++ told⟩ ∧ (.complete .ok ∈ told →
        told = reported wanted r.page.orders ++ [.complete .ok] ∧ (r.page.Ends ∨ StopsShort p r.page)) := by
  unfold OpenQuery.respond
  simp only [h, append_assoc]
  split
  next => exact .inr ⟨_, rfl, by simp⟩
  next next parsed hparsed =>
    obtain ⟨rfl, hnx⟩ := parseOpenOrderSnapshots_eq (ite_none_left_eq_some.mp hparsed).2
    have hcut (sent : Nat) : .complete .ok ∉ (reported wanted r.page.orders).take sent :=
      fun hok => complete_notMem_reported (mem_of_mem_take hok)
    split
    next sent _ => exact .inr ⟨_, rfl, fun hok => absurd hok (hcut sent)⟩
    next sent _ => exact .inr ⟨_, rfl, by simp [hcut]⟩
    next =>
      split_ifs with hcpl hsubmitted
      · exact .inr ⟨_, rfl, fun _ => ⟨rfl, (if_pos hcpl).mp hnx⟩⟩
      · rw [if_neg hcpl] at hnx
        exact .inl ⟨next, by rw [hnx]⟩
      · exact .inr ⟨_, rfl, by simp [complete_notMem_reported, Ne.symm hsubmitted]⟩

theorem run_append : run wanted (responses ++ [r]) = (run wanted responses).respond wanted r := by
  rw [run, foldl_append]
  rfl

theorem run_waiting (h : (run wanted responses).waiting = some p) :
    (run wanted responses).asked = "" :: responses.map (·.page.cursor) ∧
      (run wanted responses).events = reported wanted (responses.flatMap (·.page.orders)) := by
  induction responses using reverseRecOn generalizing p with
  | nil => exact ⟨rfl, rfl⟩
  | append_singleton responses r ih =>
    rw [run_append] at h ⊢
    cases hbefore : (run wanted responses).waiting with
    | none => simp [OpenQuery.respond, hbefore] at h
    | some earlier =>
      obtain ⟨hask, hevs⟩ := ih hbefore
      rcases respond_cases wanted r hbefore with ⟨next, hnx⟩ | ⟨told, hto, -⟩
      · simp [hnx, hask, hevs, reported]
      · rw [hto] at h
        cases h

/-- A query that completes without an error has reported every order of a whole chain of pages, unless it stopped
at a cap or at a cursor that came before. -/
theorem open_query_whole_iff (h : (run wanted responses).waiting = some p)
    (hok : .complete .ok ∈ (run wanted (responses ++ [last])).events) :
    ((run wanted (responses ++ [last])).asked = "" :: responses.map (·.page.cursor) ∧ last.page.Ends ∧
      (run wanted (responses ++ [last])).events =
        reported wanted ((responses ++ [last]).flatMap (·.page.orders)) ++ [.complete .ok]) ↔
      ¬StopsShort p last.page := by
  obtain ⟨hasked, hevents⟩ := run_waiting h
  rw [run_append] at hok ⊢
  rcases respond_cases wanted last h with ⟨next, hnext⟩ | ⟨told, htold, hwhole⟩
  · rw [hnext, hevents] at hok
    simp [reported] at hok
  · rw [htold, hevents, mem_append, or_iff_right complete_notMem_reported] at hok
    obtain ⟨rfl, hend⟩ := hwhole hok
    rw [htold]
    constructor
    · rintro ⟨-, hends, -⟩ hshort
      exact hshort.1 hends
    · intro hshort
      exact ⟨hasked, hend.resolve_right hshort, by simp [hevents, reported]⟩

def pageOf (order : Nat) (nextCursor : Option String) : Response Nat := { page := { items := [.live order], nextCursor } }

theorem open_query_whole_chain : (run (fun _ => true) [pageOf 1 "Mg==", pageOf 2 none]).events =
    [.openOrder 1, .openOrder 2, .complete .ok] := by
  have hwaiting : (run (fun _ => true) [pageOf 1 "Mg=="]).waiting = some _ := (some_get (by decide)).symm
  exact ((@open_query_whole_iff Nat _ _ (pageOf 2 none) _ hwaiting (by decide)).mpr fun h => h.1 (by decide)).2.2

/-- The second page names the cursor that it was asked for with. -/
theorem repeated_cursor_completes :
    (run (fun _ => true) [pageOf 1 "Mg==", pageOf 2 "Mg=="]).events = [.openOrder 1, .openOrder 2, .complete .ok] ∧
      ¬(pageOf 2 "Mg==").page.Ends := by
  decide

end SelfQuant.Polymarket
