import NodexProxy.Foundation.Slices
import NodexProxy.Jsonrpc.Request
import NodexProxy.Jsonscan.Related

/-! Parsed requests in memory. The fast path leaves views of the request body, the decoder copies,
and `OwnRequests` turns views into copies before the body is written again. -/

namespace NodexProxy.Jsonrpc

open NodexProxy.Foundation NodexProxy.Jsonscan

attribute [ext] RequestObject

/-- The fields of a request as slices of byte arrays. -/
structure RequestView where
  jsonrpc : Slice
  method : Slice
  params : Option Slice
  id : Option Slice
deriving DecidableEq, Repr

namespace RequestView

def zero : RequestView := ⟨⟨0, 0, 0⟩, ⟨0, 0, 0⟩, none, none⟩

/-- What the fields show at the moment. -/
def read (view : RequestView) (arrays : List Bytes) : RequestObject where
  jsonrpc := view.jsonrpc.read arrays
  method := view.method.read arrays
  params := view.params.map (·.read arrays)
  id := view.id.map (·.read arrays)

/-- All fields that are there are slices of some kind. -/
structure All (holds : Slice → Prop) (view : RequestView) : Prop where
  jsonrpc : holds view.jsonrpc
  method : holds view.method
  params : ∀ slice ∈ view.params, holds slice
  id : ∀ slice ∈ view.id, holds slice

def Held (arrays : List Bytes) : RequestView → Prop := All (·.Held arrays)

theorem All.imp {view : RequestView} {holds implied : Slice → Prop} (all : view.All holds)
    (step : ∀ slice, holds slice → implied slice) : view.All implied where
  jsonrpc := step _ all.jsonrpc
  method := step _ all.method
  params slice held := step slice (all.params slice held)
  id slice held := step slice (all.id slice held)

/-- Memory in which every field reads as before. -/
theorem read_congr {view : RequestView}
    (all : view.All fun slice => slice.read larger = slice.read arrays) :
    view.read larger = view.read arrays := by
  rw [read, read, all.jsonrpc, all.method, Option.map_congr all.params, Option.map_congr all.id]

theorem Held.read_of_grows {view : RequestView} (held : view.Held arrays)
    (grows : arrays <+: larger) : view.read larger = view.read arrays :=
  read_congr (held.imp fun _ held => held.read_of_grows grows)

theorem Held.of_grows {view : RequestView} (held : view.Held arrays) (grows : arrays <+: larger) :
    view.Held larger :=
  held.imp fun _ held => held.of_grows grows

end RequestView

namespace Views

/-- What the requests show at the moment. -/
def readRequests (arrays : List Bytes) (views : List (Option RequestView)) :
    List (Option RequestObject) :=
  views.map (Option.map (·.read arrays))

def RequestsHeld (arrays : List Bytes) (views : List (Option RequestView)) : Prop :=
  ∀ view, some view ∈ views → view.Held arrays

section Parse

variable (body : Slice) (text : Bytes)

/-- The visitor of `scanRequestObject`, with the fields as views of the body. -/
def visitMember (state : RequestView × Bool) (key : Bytes) (keyEscaped : Bool)
    (start stop : Nat) : Checked ((RequestView × Bool) × Bool) :=
  let decline := ((state.1, false), false)
  if key = ascii "jsonrpc" ∨ key = ascii "method" then do
    let byte ← read text start
    if byte ≠ 34 then return decline
    else
      let value ← slice text (start + 1) (stop - 1)
      if !isPlainASCII value then return decline
      else if key = ascii "jsonrpc" then
        return (({ state.1 with jsonrpc := body.cut (start + 1) (stop - 1) }, state.2), true)
      else return (({ state.1 with method := body.cut (start + 1) (stop - 1) }, state.2), true)
  else if key = ascii "params" then do
    let _ ← slice text start stop
    return (({ state.1 with params := some (body.cut start stop) }, state.2), true)
  else if key = ascii "id" then do
    let _ ← slice text start stop
    return (({ state.1 with id := some (body.cut start stop) }, state.2), true)
  else if keyEscaped || !isPlainASCII key then return decline
  else if requestKeys.any fun field => equalFold key field.name then return decline
  else return (state, true)

def scanRequestObject (index : Nat) : Checked (Option RequestView) := do
  let (stop, view, ok) ← scanObject text index (visitMember body text) (.zero, true)
  return if ok && stop.isSome then some view else none

def visitElement (state : List RequestView × Bool) (_ start _ : Nat) :
    Checked ((List RequestView × Bool) × Bool) := do
  let byte ← read text start
  if byte ≠ 123 then return ((state.1, true), false)
  else
    match ← scanRequestObject body text start with
    | none => return ((state.1, true), false)
    | some view => return ((state.1 ++ [view], state.2), true)

variable (sonic : Sonic)

/-- `parseRequestBorrowed`, with the requests as views of the body. -/
def parseRequestBorrowed : Checked (Option (List RequestView)) :=
  if text.contains 92 || !sonic.valid text then return none
  else do
    let index ← skipSpace text 0
    if text.length ≤ index then return none
    else
      let byte ← read text index
      if byte = 123 then
        let view ← scanRequestObject body text index
        return view.map fun view => [view]
      else if byte = 91 then
        let (stop, views, declined) ← scanArray text index (visitElement body text) ([], false)
        return if stop.isNone || declined then none else some views
      else return none

end Parse

section Copies

def copyRaw (arrays : List Bytes) : Option Bytes → Option Slice × List Bytes
  | none => (none, arrays)
  | some raw =>
    let (slice, arrays) := Slice.copy arrays raw
    (some slice, arrays)

/-- A request with fields of its own. -/
def copyRequest (arrays : List Bytes) (request : RequestObject) : RequestView × List Bytes :=
  let (jsonrpc, arrays) := Slice.copy arrays request.jsonrpc
  let (method, arrays) := Slice.copy arrays request.method
  let (params, arrays) := copyRaw arrays request.params
  let (id, arrays) := copyRaw arrays request.id
  (⟨jsonrpc, method, params, id⟩, arrays)

/-- Requests from the decoder, which never alias the body. -/
def copyRequests (arrays : List Bytes) :
    List (Option RequestObject) → List (Option RequestView) × List Bytes
  | [] => ([], arrays)
  | none :: requests =>
    let (views, arrays) := copyRequests arrays requests
    (none :: views, arrays)
  | some request :: requests =>
    let (view, arrays) := copyRequest arrays request
    let (views, arrays) := copyRequests arrays requests
    (some view :: views, arrays)

/-- `OwnRequests`. -/
def ownRequests (arrays : List Bytes) :
    List (Option RequestView) → List (Option RequestView) × List Bytes
  | [] => ([], arrays)
  | none :: views =>
    let (own, arrays) := ownRequests arrays views
    (none :: own, arrays)
  | some view :: views =>
    let (copied, arrays) := copyRequest arrays (view.read arrays)
    let (own, arrays) := ownRequests arrays views
    (some copied :: own, arrays)

end Copies

/-- `ParseRequest`: the requests, and the memory they are in. -/
def parseRequest (sonic : Sonic) (arrays : List Bytes) (body : Option Slice) :
    Checked (Except ParseError (List (Option RequestView)) × List Bytes) :=
  match body with
  | none => return (.error .readBody, arrays)
  | some body => do
    match ← parseRequestBorrowed body (body.read arrays) sonic with
    | some views => return (.ok (views.map some), arrays)
    | none =>
      match parseRequestDecoded sonic (body.read arrays) with
      | .error error => return (.error error, arrays)
      | .ok requests =>
        let (views, arrays) := copyRequests arrays requests
        return (.ok views, arrays)

section Borrowed

variable {body : Slice} {arrays : List Bytes}

/-- A bound check that passes cuts the body where it cuts its text. -/
theorem read_of_slice (within : body.Within arrays)
    (cut : slice (body.read arrays) low high = .ok piece) :
    (body.cut low high).read arrays = piece ∧ (body.cut low high).Held arrays := by
  have length : (body.read arrays).length = body.length := List.length_take_of_le within.length
  unfold slice at cut
  split_ifs at cut with inside
  rw [length] at inside
  cases cut
  exact ⟨Slice.read_cut inside.2, within.cut inside.2⟩

/-- A request in memory and the request it shows. -/
def Shows (arrays : List Bytes) (view : RequestView) (request : RequestObject) : Prop :=
  view.read arrays = request ∧ view.Held arrays

theorem zero_shows : Shows arrays .zero .zero := by
  have empty : Slice.Held ⟨0, 0, 0⟩ arrays := fun present => absurd rfl present
  refine ⟨by simp [RequestView.read, RequestView.zero, RequestObject.zero, Slice.read], ?_⟩
  exact ⟨empty, empty, by simp [RequestView.zero], by simp [RequestView.zero]⟩

/-- The states of the two visitors of an object. -/
def ShowsState (arrays : List Bytes) (state : RequestView × Bool) (other : RequestObject × Bool) :
    Prop :=
  Shows arrays state.1 other.1 ∧ state.2 = other.2

theorem visitMember_agree (within : body.Within arrays) {state : RequestView × Bool}
    {other : RequestObject × Bool} (shows : ShowsState arrays state other) (key : Bytes)
    (keyEscaped : Bool) (start stop : Nat) :
    Agree (ShowsState arrays)
      (visitMember body (body.read arrays) state key keyEscaped start stop)
      (Jsonrpc.visitMember (body.read arrays) other key keyEscaped start stop) := by
  obtain ⟨view, _⟩ := state
  obtain ⟨request, flag⟩ := other
  obtain ⟨⟨rfl, held⟩, rfl⟩ := shows
  have declined : Agree (ShowsState arrays) (.ok ((view, false), false))
      (.ok ((view.read arrays, false), false)) := .ok ⟨⟨⟨rfl, held⟩, rfl⟩, rfl⟩
  unfold visitMember Jsonrpc.visitMember
  dsimp only
  by_cases named : key = ascii "jsonrpc" ∨ key = ascii "method"
  · rw [if_pos named, if_pos named]
    refine .after fun byte => ?_
    by_cases other : byte ≠ 34
    · rw [if_pos other, if_pos other]
      exact declined
    rw [if_neg other, if_neg other]
    cases cut : slice (body.read arrays) (start + 1) (stop - 1) with
    | error fault => exact .error
    | ok value =>
      obtain ⟨shown, there⟩ := read_of_slice within cut
      simp only [Checked.ok_bind]
      split_ifs
      · exact declined
      · refine .ok ⟨⟨⟨?_, { held with jsonrpc := there }⟩, rfl⟩, rfl⟩
        rw [← shown]
        rfl
      · refine .ok ⟨⟨⟨?_, { held with method := there }⟩, rfl⟩, rfl⟩
        rw [← shown]
        rfl
  rw [if_neg named, if_neg named]
  split_ifs
  · cases cut : slice (body.read arrays) start stop with
    | error fault => exact .error
    | ok raw =>
      obtain ⟨shown, there⟩ := read_of_slice within cut
      refine .ok ⟨⟨⟨?_, { held with params := by simpa using there }⟩, rfl⟩, rfl⟩
      rw [← shown]
      rfl
  · cases cut : slice (body.read arrays) start stop with
    | error fault => exact .error
    | ok raw =>
      obtain ⟨shown, there⟩ := read_of_slice within cut
      refine .ok ⟨⟨⟨?_, { held with id := by simpa using there }⟩, rfl⟩, rfl⟩
      rw [← shown]
      rfl
  · exact declined
  · exact declined
  · exact .ok ⟨⟨⟨rfl, held⟩, rfl⟩, rfl⟩

theorem scanRequestObject_agree (within : body.Within arrays) (index : Nat) :
    Checked.Related (Option.Rel (Shows arrays)) (scanRequestObject body (body.read arrays) index)
      (Jsonrpc.scanRequestObject (body.read arrays) index) := by
  have scanned := scanObject_meet (body.read arrays) index
    (fun _ _ key keyEscaped start stop shows =>
      visitMember_agree within shows key keyEscaped start stop)
    (⟨zero_shows, rfl⟩ : ShowsState arrays (.zero, true) (.zero, true))
  refine .bind scanned fun first second both => ?_
  obtain ⟨stop, view, ok⟩ := first
  obtain ⟨_, request, _⟩ := second
  obtain ⟨rfl, shows, rfl⟩ := both
  refine .ok ?_
  dsimp only
  split_ifs
  · exact .some shows
  · exact .none

/-- The states of the two visitors of a batch. -/
def ShowsBatch (arrays : List Bytes) (state : List RequestView × Bool)
    (other : List RequestObject × Bool) : Prop :=
  List.Forall₂ (Shows arrays) state.1 other.1 ∧ state.2 = other.2

theorem visitElement_agree (within : body.Within arrays) {state : List RequestView × Bool}
    {other : List RequestObject × Bool} (shows : ShowsBatch arrays state other)
    (position start stop : Nat) :
    Agree (ShowsBatch arrays) (visitElement body (body.read arrays) state position start stop)
      (Jsonrpc.visitElement (body.read arrays) other position start stop) := by
  refine .after fun byte => ?_
  split_ifs
  · exact .ok ⟨⟨shows.1, rfl⟩, rfl⟩
  · refine .bind (scanRequestObject_agree within start) fun view request both => ?_
    cases both with
    | none => exact .ok ⟨⟨shows.1, rfl⟩, rfl⟩
    | some both => exact .ok ⟨⟨List.rel_append shows.1 (.cons both .nil), shows.2⟩, rfl⟩

theorem parseRequestBorrowed_agree (sonic : Sonic) (within : body.Within arrays) :
    Checked.Related (Option.Rel (List.Forall₂ (Shows arrays)))
      (parseRequestBorrowed body (body.read arrays) sonic)
      (Jsonrpc.parseRequestBorrowed sonic (body.read arrays)) := by
  unfold parseRequestBorrowed Jsonrpc.parseRequestBorrowed
  split_ifs
  · exact .ok .none
  refine .after fun index => ?_
  split_ifs
  · exact .ok .none
  refine .after fun byte => ?_
  split_ifs
  · refine .bind (scanRequestObject_agree within index) fun view request both => .ok ?_
    cases both with
    | none => exact .none
    | some both => exact .some (.cons both .nil)
  · have scanned := scanArray_meet (body.read arrays) index
      (fun _ _ position start stop shows => visitElement_agree within shows position start stop)
      (⟨.nil, rfl⟩ : ShowsBatch arrays ([], false) ([], false))
    refine .bind scanned fun first second both => ?_
    obtain ⟨stop, views, declined⟩ := first
    obtain ⟨_, requests, _⟩ := second
    obtain ⟨rfl, shows, rfl⟩ := both
    refine .ok ?_
    dsimp only
    split_ifs
    · exact .none
    · exact .some shows
  · exact .ok .none

end Borrowed

section Owned

/-- A request in arrays that were not there before. -/
structure Fresh (arrays larger : List Bytes) (view : RequestView) (request : RequestObject) :
    Prop where
  shows : Shows larger view request
  apart : view.All (arrays.length ≤ ·.array)

theorem Fresh.of_grows {view : RequestView} (fresh : Fresh arrays middle view request)
    (grows : middle <+: larger) : Fresh arrays larger view request where
  shows := ⟨(fresh.shows.2.read_of_grows grows).trans fresh.shows.1, fresh.shows.2.of_grows grows⟩
  apart := fresh.apart

theorem Fresh.of_start {view : RequestView} (fresh : Fresh middle larger view request)
    (grows : arrays <+: middle) : Fresh arrays larger view request where
  shows := fresh.shows
  apart := fresh.apart.imp fun _ apart => grows.length_le.trans apart

/-- A raw field in an array that was not there before, unless it is nil. -/
def FreshRaw (arrays larger : List Bytes) : Option Slice → Option Bytes → Prop :=
  Option.Rel (Slice.Fresh arrays larger)

theorem FreshRaw.imp {slice : Option Slice} (fresh : FreshRaw arrays larger slice raw)
    (step : ∀ slice raw, Slice.Fresh arrays larger slice raw → Slice.Fresh start final slice raw) :
    FreshRaw start final slice raw := by
  cases fresh with
  | none => exact .none
  | some fresh => exact .some (step _ _ fresh)

theorem FreshRaw.reads {slice : Option Slice} (fresh : FreshRaw arrays larger slice raw) :
    slice.map (·.read larger) = raw := by
  cases fresh with
  | none => rfl
  | some fresh => exact congrArg some fresh.reads

theorem FreshRaw.all {slice : Option Slice} (fresh : FreshRaw arrays larger slice raw) :
    ∀ part ∈ slice, part.Held larger ∧ arrays.length ≤ part.array := by
  cases fresh with
  | none => simp
  | some fresh => simpa using ⟨fresh.held, fresh.apart⟩

theorem copyRaw_fresh (arrays : List Bytes) (raw : Option Bytes) :
    arrays <+: (copyRaw arrays raw).2 ∧
      FreshRaw arrays (copyRaw arrays raw).2 (copyRaw arrays raw).1 raw := by
  cases raw with
  | none => exact ⟨List.prefix_rfl, .none⟩
  | some raw => exact ⟨Slice.copy_grows, .some Slice.copy_fresh⟩

theorem copyRequest_fresh (arrays : List Bytes) (request : RequestObject) :
    arrays <+: (copyRequest arrays request).2 ∧
      Fresh arrays (copyRequest arrays request).2 (copyRequest arrays request).1 request := by
  have first : arrays <+: (Slice.copy arrays request.jsonrpc).2 := Slice.copy_grows
  have second : arrays <+: (Slice.copy (Slice.copy arrays request.jsonrpc).2 request.method).2 :=
    first.trans Slice.copy_grows
  obtain ⟨third, params⟩ := copyRaw_fresh
    (Slice.copy (Slice.copy arrays request.jsonrpc).2 request.method).2 request.params
  obtain ⟨fourth, id⟩ := copyRaw_fresh (copyRaw
    (Slice.copy (Slice.copy arrays request.jsonrpc).2 request.method).2 request.params).2 request.id
  have rest := third.trans fourth
  have jsonrpc := Slice.copy_fresh.of_grows (Slice.copy_grows.trans rest)
  have method := (Slice.copy_fresh.of_grows rest).of_start first
  have params := params.imp fun _ _ fresh => (fresh.of_grows fourth).of_start second
  have id := id.imp fun _ _ fresh => fresh.of_start (second.trans third)
  refine ⟨second.trans rest, ⟨?_, ?_⟩, ?_⟩
  · exact RequestObject.ext jsonrpc.reads method.reads params.reads id.reads
  · exact ⟨jsonrpc.held, method.held, fun part held => (params.all part held).1,
      fun part held => (id.all part held).1⟩
  · exact ⟨jsonrpc.apart, method.apart, fun part held => (params.all part held).2,
      fun part held => (id.all part held).2⟩

theorem readRequests_of_grows {views : List (Option RequestView)} (held : RequestsHeld arrays views)
    (grows : arrays <+: larger) : readRequests larger views = readRequests arrays views := by
  refine List.map_congr_left fun view listed => ?_
  cases view with
  | none => rfl
  | some view => exact congrArg some ((held view listed).read_of_grows grows)

/-- Copies go to new arrays, so the later requests show what they showed at the start. -/
theorem ownRequests_eq {views : List (Option RequestView)} (held : RequestsHeld arrays views) :
    ownRequests arrays views = copyRequests arrays (readRequests arrays views) := by
  induction views generalizing arrays with
  | nil => rfl
  | cons view views inductionHypothesis =>
    have rest : RequestsHeld arrays views := fun view listed => held view (List.mem_cons_of_mem _ listed)
    cases view with
    | none =>
      rw [ownRequests, inductionHypothesis rest]
      rfl
    | some view =>
      obtain ⟨grows, -⟩ := copyRequest_fresh arrays (view.read arrays)
      have later : RequestsHeld (copyRequest arrays (view.read arrays)).2 views :=
        fun view listed => (rest view listed).of_grows grows
      simp only [ownRequests, inductionHypothesis later, readRequests_of_grows rest grows]
      rfl

/-- The memory the copies are in, and each of them in arrays that were not there before. -/
theorem copyRequests_fresh (arrays : List Bytes) (requests : List (Option RequestObject)) :
    arrays <+: (copyRequests arrays requests).2 ∧
      List.Forall₂ (Option.Rel (Fresh arrays (copyRequests arrays requests).2))
        (copyRequests arrays requests).1 requests := by
  induction requests generalizing arrays with
  | nil => exact ⟨List.prefix_rfl, .nil⟩
  | cons request requests inductionHypothesis =>
    cases request with
    | none =>
      obtain ⟨grows, fresh⟩ := inductionHypothesis arrays
      exact ⟨grows, .cons .none fresh⟩
    | some request =>
      obtain ⟨first, own⟩ := copyRequest_fresh arrays request
      obtain ⟨grows, fresh⟩ := inductionHypothesis (copyRequest arrays request).2
      refine ⟨first.trans grows, .cons (.some (own.of_grows grows)) (fresh.imp ?_)⟩
      intro view request rel
      cases rel with
      | none => exact .none
      | some fresh => exact .some (fresh.of_start first)

/-- Requests in memory and what they show. -/
def ShowsAll (arrays : List Bytes) :
    List (Option RequestView) → List (Option RequestObject) → Prop :=
  List.Forall₂ (Option.Rel (Shows arrays))

theorem ShowsAll.reads {views : List (Option RequestView)} (shows : ShowsAll arrays views requests) :
    readRequests arrays views = requests := by
  induction shows with
  | nil => rfl
  | cons first _ inductionHypothesis =>
    refine congrArg₂ List.cons ?_ inductionHypothesis
    cases first with
    | none => rfl
    | some shows => exact congrArg some shows.1

theorem ShowsAll.held {views : List (Option RequestView)} (shows : ShowsAll arrays views requests) :
    RequestsHeld arrays views := by
  intro view listed
  induction shows with
  | nil => cases listed
  | cons first _ inductionHypothesis =>
    cases listed with
    | head =>
      cases first with
      | some shows => exact shows.2
    | tail _ listed => exact inductionHypothesis listed

/-- Requests in arrays of their own do not see the body written again. -/
theorem ShowsAll.refill {views : List (Option RequestView)} {body : Slice}
    (inside : body.array < arrays.length)
    (fresh : List.Forall₂ (Option.Rel (Fresh arrays larger)) views requests) (payload : Bytes) :
    ShowsAll (body.refill larger payload).2 views requests := by
  refine fresh.imp fun view request rel => ?_
  cases rel with
  | none => exact .none
  | @some view request fresh =>
    have kept (slice : Slice) (held : slice.Held larger) (apart : arrays.length ≤ slice.array) :=
      held.refill_of_apart (fun _ => show slice.array ≠ body.array by omega) payload
    obtain ⟨⟨reads, held⟩, apart⟩ := fresh
    refine .some ⟨?_, ?_⟩
    · rw [← reads]
      exact RequestView.read_congr
        ⟨(kept _ held.jsonrpc apart.jsonrpc).2, (kept _ held.method apart.method).2,
          fun part there => (kept _ (held.params part there) (apart.params part there)).2,
          fun part there => (kept _ (held.id part there) (apart.id part there)).2⟩
    · exact ⟨(kept _ held.jsonrpc apart.jsonrpc).1, (kept _ held.method apart.method).1,
        fun part there => (kept _ (held.params part there) (apart.params part there)).1,
        fun part there => (kept _ (held.id part there) (apart.id part there)).1⟩

end Owned

/-- What `ParseRequest` leaves in memory, and what it returned. -/
structure ShowsParsed (arrays : List Bytes)
    (parsed : Except ParseError (List (Option RequestView)) × List Bytes)
    (returned : Except ParseError (List (Option RequestObject))) : Prop where
  reads : parsed.1.map (readRequests parsed.2) = returned
  grows : arrays <+: parsed.2
  held : ∀ views, parsed.1 = .ok views → RequestsHeld parsed.2 views

theorem ShowsParsed.of_all {views : List (Option RequestView)} (grows : arrays <+: larger)
    (shows : ShowsAll larger views requests) : ShowsParsed arrays (.ok views, larger) (.ok requests) where
  reads := congrArg Except.ok shows.reads
  grows := grows
  held _ same := by
    cases same
    exact shows.held

/-- Whichever path is taken, the requests show what `ParseRequest` gives for the text. -/
theorem parseRequest_shows (sonic : Sonic) {body : Option Slice}
    (within : ∀ slice ∈ body, slice.Within arrays) :
    Checked.Related (ShowsParsed arrays) (parseRequest sonic arrays body)
      (Jsonrpc.parseRequest sonic (body.map (·.read arrays))) := by
  have failed (error : ParseError) : ShowsParsed arrays (.error error, arrays) (.error error) :=
    ⟨rfl, List.prefix_rfl, fun _ same => by cases same⟩
  cases body with
  | none => exact .ok (failed .readBody)
  | some body =>
    refine .bind (parseRequestBorrowed_agree sonic (within body rfl)) fun views requests both => ?_
    cases both with
    | some shows =>
      refine .ok (.of_all List.prefix_rfl ?_)
      exact List.forall₂_map_left_iff.mpr (List.forall₂_map_right_iff.mpr (shows.imp fun _ _ => .some))
    | none =>
      cases decoded : parseRequestDecoded sonic (body.read arrays) with
      | error error => exact .ok (failed error)
      | ok requests =>
        obtain ⟨grows, fresh⟩ := copyRequests_fresh arrays requests
        refine .ok (.of_all grows (fresh.imp fun _ _ rel => ?_))
        cases rel with
        | none => exact .none
        | some fresh => exact .some fresh.shows

end Views

end NodexProxy.Jsonrpc
