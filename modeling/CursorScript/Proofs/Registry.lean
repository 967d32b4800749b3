import CursorScript.Proofs.Lifecycle
import CursorScript.Proofs.Suspension
import CursorScript.Session
import Mathlib.Data.List.Basic

/-!
A host with many runs. What becomes of a run that was started follows from the run and from the
turns that it is given afterwards, as if there were no other run: `Run.fate` says what. The host
holds the runs that this leaves active, in the order in which they were started, and hands back each
of the others once, when its fate says so.
-/
namespace CursorScript

/-- What a host is asked to do. In a tick the time that each run is given depends on the machine the
host runs on, so a tick comes with the allowance that this amounts to at each place. -/
inductive Session.Event where
  | start (path stamp : String) (file : FileContent) (options : RunOptions)
  | tick (allowance : Nat → Nat)
  | stop (id : String)

inductive Run.Turn where
  | wait
  | tick (allowance : Nat)
  | stop (id : String)

open Session (Event)

namespace Run

/-- A run after a turn, and whether it stays with its host. -/
def meets (r : Run) : Turn → Run × Bool
  | .wait => (r, true)
  | .tick allowance =>
    let r' := (r.tick allowance).2
    (r', r'.state = .running)
  | .stop id => if r.id = id then (r.stop, false) else (r, true)

inductive Fate where
  | active (r : Run)
  /-- Handed back with a turn, after which there were `later` more. -/
  | left (turn : Turn) (r : Run) (later : Nat)

def fate (r : Run) : List Turn → Fate
  | [] => .active r
  | turn :: later =>
    if (r.meets turn).2 then (r.meets turn).1.fate later
    else .left turn (r.meets turn).1 later.length

/-- The allowances of the ticks that a run is given while it stays. -/
def allotted (r : Run) : List Turn → List Nat
  | [] => []
  | .tick allowance :: later =>
    allowance ::
      if (r.meets (.tick allowance)).2 then (r.meets (.tick allowance)).1.allotted later else []
  | turn :: later => if (r.meets turn).2 then (r.meets turn).1.allotted later else []

def Fate.active? : Fate → Option Run
  | active r => some r
  | left .. => none

def Fate.left? (moment : Nat) : Fate → Option Run
  | active _ => none
  | left _ r later => if later = moment then some r else none

end Run

namespace Session

def Event.turn (event : Event) (place : Nat) : Run.Turn :=
  match event with
  | .start .. => .wait
  | .tick allowance => .tick (allowance place)
  | .stop id => .stop id

def Event.keeps (event : Event) (entry : Run × Nat) : Bool :=
  (entry.1.meets (event.turn entry.2)).2

def Event.leave (event : Event) (entry : Run × Nat) : Run :=
  (entry.1.meets (event.turn entry.2)).1

/-- What a host hands back with an event, and the host afterwards. -/
def handle (s : Session) : Event → List Run × Session
  | .start path stamp file options => ([], (s.start path stamp file options).2)
  | .tick allowance => s.tickWith allowance
  | .stop id => s.stop id

def play (s : Session) (events : List Event) : Session :=
  events.foldl (fun s event => (s.handle event).2) s

def begun? (s : Session) : Event → Option Run
  | .start path stamp file options =>
    match (Run.new path stamp options s.config).start s.library file with
    | (.ok (), r) => some r
    | (.error _, _) => none
  | _ => none

/-- Where a run at a place stands behind an event: runs before it may have left. -/
def placeBehind (s : Session) (event : Event) (place : Nat) : Nat :=
  (s.runs.zipIdx.take place).countP event.keeps

def turns (s : Session) (place : Nat) : List Event → List Run.Turn
  | [] => []
  | event :: later =>
    event.turn place :: (s.handle event).2.turns (s.placeBehind event place) later

/-- The runs that are started, the first of them first, with the turns that they are given. -/
def lives (s : Session) : List Event → List (Run × List Run.Turn)
  | [] => []
  | event :: later =>
    (s.begun? event).toList.map (fun r => (r, (s.handle event).2.turns s.runs.length later)) ++
      (s.handle event).2.lives later

theorem length_turns (s : Session) (place : Nat) (events : List Event) :
    (s.turns place events).length = events.length := by
  induction events generalizing s place with
  | nil => rfl
  | cons event later ih => simp [turns, ih]

/-- The turns of a run are what the events are at its places. -/
theorem exists_places (s : Session) (place : Nat) (events : List Event) :
    ∃ places, places.length = events.length ∧
      s.turns place events = List.zipWith Event.turn events places := by
  induction events generalizing s place with
  | nil => exact ⟨[], rfl, rfl⟩
  | cons event later ih =>
    obtain ⟨places, count, same⟩ := ih (s.handle event).2 (s.placeBehind event place)
    exact ⟨place :: places, by simp [count], by simp [turns, same]⟩

end Session

namespace Run
variable {r : Run} {turn : Turn} {later : List Turn}

theorem fate_of_stays (h : (r.meets turn).2 = true) :
    r.fate (turn :: later) = (r.meets turn).1.fate later := by simp [fate, h]

theorem fate_of_leaves (h : (r.meets turn).2 = false) :
    r.fate (turn :: later) = .left turn (r.meets turn).1 later.length := by simp [fate, h]

/-- A run leaves with one of its turns. -/
theorem left?_fate_of_le {moment : Nat} (h : later.length ≤ moment) :
    (r.fate later).left? moment = none := by
  induction later generalizing r with
  | nil => rfl
  | cons turn later ih =>
    have less : later.length < moment := by simpa [Nat.succ_le_iff] using h
    cases stays : (r.meets turn).2 with
    | true =>
      rw [fate_of_stays stays]
      exact ih (Nat.le_of_lt less)
    | false =>
      rw [fate_of_leaves stays]
      simp [Fate.left?, Nat.ne_of_lt less]

section turns
variable (event : Event) (rest : Run × Nat → List Turn) {moment : Nat}
  (even : ∀ entry, (rest entry).length = moment)
include even

/-- Of some runs, those that stay with an event decide about what comes later. -/
theorem filterMap_fate_cons {view : Fate → Option Run}
    (skip : ∀ turn r, view (.left turn r moment) = none) (entries : List (Run × Nat)) :
    (entries.filterMap fun entry => view (entry.1.fate (event.turn entry.2 :: rest entry))) =
      (entries.filter event.keeps).filterMap fun entry =>
        view ((event.leave entry).fate (rest entry)) := by
  induction entries with
  | nil => rfl
  | cons entry entries ih =>
    cases stays : event.keeps entry with
    | true =>
      have same : view (entry.1.fate (event.turn entry.2 :: rest entry)) =
          view ((event.leave entry).fate (rest entry)) := congrArg view (fate_of_stays stays)
      simp [List.filterMap_cons, same, stays, ih]
    | false =>
      have gone : view (entry.1.fate (event.turn entry.2 :: rest entry)) = none := by
        rw [fate_of_leaves stays, even, skip]
      simp [gone, stays, ih]

theorem filterMap_left?_cons (entries : List (Run × Nat)) :
    (entries.filterMap fun entry =>
        (entry.1.fate (event.turn entry.2 :: rest entry)).left? moment) =
      (entries.filter fun entry => !event.keeps entry).map event.leave := by
  induction entries with
  | nil => rfl
  | cons entry entries ih =>
    cases stays : event.keeps entry with
    | true =>
      have none : (entry.1.fate (event.turn entry.2 :: rest entry)).left? moment = none := by
        rw [fate_of_stays stays]
        exact left?_fate_of_le (Nat.le_of_eq (even entry))
      simp [none, stays, ih]
    | false =>
      have some : (entry.1.fate (event.turn entry.2 :: rest entry)).left? moment =
          some (event.leave entry) := by
        rw [fate_of_leaves stays, even]
        simp [Fate.left?, Event.leave]
      simp [some, stays, ih]

end turns

end Run

/-- What passes a test stands behind as many as pass it before. -/
theorem zipIdx_filter_zipIdx {α : Type} (test : α × Nat → Bool) (xs : List α) (first least : Nat) :
    ((xs.zipIdx first).filter test).zipIdx least =
      ((xs.zipIdx first).filter test).map fun entry =>
        (entry, least + ((xs.zipIdx first).take (entry.2 - first)).countP test) := by
  induction xs generalizing first least with
  | nil => rfl
  | cons x xs ih =>
    have further : ∀ entry ∈ (xs.zipIdx (first + 1)).filter test,
        entry.2 - first = entry.2 - (first + 1) + 1 := by
      intro entry mem
      have behind := List.le_snd_of_mem_zipIdx (List.mem_filter.1 mem).1
      omega
    rw [List.zipIdx_cons]
    by_cases passes : test (x, first) = true
    · rw [List.filter_cons_of_pos passes, List.zipIdx_cons, List.map_cons, ih]
      refine congrArg₂ _ (by simp) (List.map_congr_left fun entry mem => ?_)
      rw [further entry mem, List.take_succ_cons, List.countP_cons_of_pos passes]
      exact congrArg (Prod.mk entry) (by omega)
    · rw [List.filter_cons_of_neg passes, ih]
      refine List.map_congr_left fun entry mem => ?_
      rw [further entry mem, List.take_succ_cons, List.countP_cons_of_neg passes]

namespace Session
variable {s : Session} {event : Event} {later : List Event}

/-- Runs that are chosen without their places. -/
theorem map_fst_filter_zipIdx (test : Run → Bool) (runs : List Run) :
    (runs.zipIdx.filter fun entry => test entry.1).map Prod.fst = runs.filter test := by
  have whole := List.filter_map (f := Prod.fst) (p := test) (l := runs.zipIdx)
  rw [List.zipIdx_map_fst] at whole
  exact whole.symm

theorem handle_eq (s : Session) (event : Event) :
    (s.handle event).1 =
      (s.runs.zipIdx.filter fun entry => !event.keeps entry).map event.leave ∧
    (s.handle event).2.runs =
      (s.runs.zipIdx.filter event.keeps).map event.leave ++ (s.begun? event).toList := by
  cases event with
  | start path stamp file options =>
    obtain ⟨result, r, began⟩ : ∃ result r,
        (Run.new path stamp options s.config).start s.library file = (result, r) := ⟨_, _, rfl⟩
    have keeps : (Event.start path stamp file options).keeps = fun _ => true := rfl
    have leave : (Event.start path stamp file options).leave = Prod.fst := rfl
    cases result <;> simp [handle, start, begun?, began, keeps, leave]
  | tick allowance =>
    have keeps : (Event.tick allowance).keeps = fun entry =>
        decide ((entry.1.tick (allowance entry.2)).2.state = .running) := rfl
    have leave : (Event.tick allowance).leave = fun entry =>
        (entry.1.tick (allowance entry.2)).2 := rfl
    simp [handle, tickWith, begun?, keeps, leave, List.partition_eq_filter_filter,
      List.filter_map, Function.comp_def]
  | stop id =>
    have gone : ∀ entry ∈ s.runs.zipIdx.filter (fun entry => decide (entry.1.id = id)),
        entry.1.stop = (Event.stop id).leave entry := by
      intro entry mem
      have same : entry.1.id = id := by simpa using (List.mem_filter.1 mem).2
      simp [Event.leave, Event.turn, Run.meets, same]
    have stay : ∀ entry ∈ s.runs.zipIdx.filter (fun entry => !decide (entry.1.id = id)),
        (Event.stop id).leave entry = entry.1 := by
      intro entry mem
      have other : entry.1.id ≠ id := by simpa using (List.mem_filter.1 mem).2
      simp [Event.leave, Event.turn, Run.meets, other]
    have keeps : (Event.stop id).keeps = fun entry => !decide (entry.1.id = id) := by
      funext entry
      by_cases same : entry.1.id = id <;> simp [Event.keeps, Event.turn, Run.meets, same]
    have named := map_fst_filter_zipIdx (fun r => decide (r.id = id)) s.runs
    have others := map_fst_filter_zipIdx (fun r => !decide (r.id = id)) s.runs
    simp only [handle, stop, begun?, keeps, List.partition_eq_filter_filter, Bool.not_not,
      Option.toList_none, List.append_nil, Function.comp_def]
    refine ⟨?_, by rw [List.map_congr_left stay]; exact others.symm⟩
    rw [← List.map_congr_left gone, ← named, List.map_map]
    rfl

/-- The runs of a host and those that it starts, with the turns that they are given. -/
def known (s : Session) (events : List Event) : List (Run × List Run.Turn) :=
  s.runs.zipIdx.map (fun entry => (entry.1, s.turns entry.2 events)) ++ s.lives events

theorem length_of_begun? {r : Run} (h : s.begun? event = some r) :
    (s.runs.zipIdx.filter event.keeps).length = s.runs.length := by
  cases event with
  | tick | stop => cases h
  | start path stamp file options =>
    have all : s.runs.zipIdx.filter (Event.start path stamp file options).keeps =
        s.runs.zipIdx := List.filter_eq_self.2 fun _ _ => rfl
    rw [all, List.length_zipIdx]

/-- The runs of a host behind an event are at the places that they have come to. -/
theorem zipIdx_runs_handle (s : Session) (event : Event) :
    (s.handle event).2.runs.zipIdx =
      (s.runs.zipIdx.filter event.keeps).map (fun entry =>
        (event.leave entry, s.placeBehind event entry.2)) ++
      (s.begun? event).toList.map fun r => (r, s.runs.length) := by
  have placed := zipIdx_filter_zipIdx event.keeps s.runs 0 0
  simp only [Nat.sub_zero, Nat.zero_add] at placed
  rw [(handle_eq s event).2, List.zipIdx_append, List.zipIdx_map, placed, List.map_map,
    List.length_map, Nat.zero_add]
  refine congrArg₂ _ rfl ?_
  cases begun : s.begun? event with
  | none => rfl
  | some r => simp [length_of_begun? begun]

theorem filterMap_known_cons {view : Run.Fate → Option Run}
    (skip : ∀ turn r, view (.left turn r later.length) = none) (s : Session) :
    (s.known (event :: later)).filterMap (fun life => view (life.1.fate life.2)) =
      ((s.handle event).2.known later).filterMap fun life => view (life.1.fate life.2) := by
  have kept := Run.filterMap_fate_cons event
    (fun entry => (s.handle event).2.turns (s.placeBehind event entry.2) later)
    (fun entry => length_turns _ _ later) skip s.runs.zipIdx
  simp only [known, lives, turns, zipIdx_runs_handle, List.map_append, List.map_map,
    List.filterMap_append, List.filterMap_map, Function.comp_def] at kept ⊢
  rw [kept, List.append_assoc]

/-- A run is started by one of the events, and is given a turn with each of those behind it. -/
theorem exists_start_of_mem_lives {life : Run × List Run.Turn} {events : List Event}
    (h : life ∈ s.lives events) : ∃ before event behind places, events = before ++ event :: behind ∧
      (s.play before).begun? event = some life.1 ∧ places.length = behind.length ∧
      life.2 = List.zipWith Event.turn behind places := by
  induction events generalizing s with
  | nil => simp [lives] at h
  | cons event later ih =>
    rcases List.mem_append.1 h with first | others
    · obtain ⟨r, begun, rfl⟩ := List.mem_map.1 first
      obtain ⟨places, count, same⟩ := (s.handle event).2.exists_places s.runs.length later
      exact ⟨[], event, later, places, rfl, Option.mem_toList.1 begun, count, same⟩
    · obtain ⟨before, start, behind, places, rfl, begun, count, same⟩ := ih others
      exact ⟨event :: before, start, behind, places, rfl, begun, count, same⟩

theorem length_of_mem_lives {life : Run × List Run.Turn} {events : List Event}
    (h : life ∈ s.lives events) : life.2.length < events.length := by
  obtain ⟨before, event, behind, places, rfl, _, count, same⟩ := exists_start_of_mem_lives h
  simp [same, count]
  omega

/-- A host holds the runs whose fate is to be active. -/
theorem runs_play (s : Session) (events : List Event) :
    (s.play events).runs =
      (s.known events).filterMap fun life => (life.1.fate life.2).active? := by
  induction events generalizing s with
  | nil => simp [play, known, lives, turns, Run.fate, Run.Fate.active?, Function.comp_def]
  | cons event later ih =>
    rw [filterMap_known_cons (fun _ _ => rfl)]
    exact ih (s.handle event).2

/-- A host hands back with an event the runs whose fate is to leave with it. -/
theorem handed_play (s : Session) (before : List Event) (event : Event) (later : List Event) :
    ((s.play before).handle event).1 =
      (s.known (before ++ event :: later)).filterMap fun life =>
        (life.1.fate life.2).left? later.length := by
  induction before generalizing s with
  | nil =>
    have none : (s.lives (event :: later)).filterMap (fun life =>
        (life.1.fate life.2).left? later.length) = [] := by
      rw [List.filterMap_eq_nil_iff]
      intro life mem
      have less := length_of_mem_lives mem
      exact Run.left?_fate_of_le (Nat.lt_succ_iff.1 less)
    have here := Run.filterMap_left?_cons event
      (fun entry => (s.handle event).2.turns (s.placeBehind event entry.2) later)
      (fun entry => length_turns _ _ later) s.runs.zipIdx
    simp only [play, List.foldl_nil, known, turns, List.nil_append, List.filterMap_append, none,
      List.append_nil, List.filterMap_map, Function.comp_def, here, (handle_eq s event).1]
  | cons first before ih =>
    have skip : ∀ turn r, Run.Fate.left? later.length
        (.left turn r (before ++ event :: later).length) = none := by
      intro turn r
      have differ : before.length + (later.length + 1) ≠ later.length := by omega
      simp [Run.Fate.left?, differ]
    rw [List.cons_append, filterMap_known_cons skip]
    exact ih (s.handle first).2

end Session

def Run.Turn.isTick : Turn → Bool
  | tick _ => true
  | _ => false

namespace Run
variable {r r' : Run} {turn : Turn} {turns : List Turn}

theorem refusal_eq_some {α : Type} {result : Except Error α} {e : Error}
    (h : refusal result = some e) : result = .error e := by
  cases result with
  | ok a => cases h
  | error e' =>
    cases h
    rfl

theorem id_tick (r : Run) (n : Nat) : (r.tick n).2.id = r.id := by
  have kept := r.keeps_tick n
  simp [id, fileName, kept.path, kept.stamp]

/-- A run that is active was given all ticks, and is as it would be after these alone. -/
theorem fate_active (running : r.state = .running) (h : r.fate turns = .active r') :
    r'.state = .running ∧ r' = r.afterTicks (r.allotted turns) ∧
      (r.allotted turns).length = turns.countP Turn.isTick := by
  induction turns generalizing r with
  | nil =>
    cases h
    exact ⟨running, rfl, rfl⟩
  | cons turn later ih =>
    cases stays : (r.meets turn).2 with
    | false =>
      rw [fate_of_leaves stays] at h
      cases h
    | true =>
      rw [fate_of_stays stays] at h
      cases turn with
      | wait => simpa [allotted, meets, Turn.isTick] using ih running h
      | tick allowance =>
        have still : (r.tick allowance).2.state = .running := by simpa [meets] using stays
        obtain ⟨running', same, count⟩ := ih still h
        refine ⟨running', ?_, ?_⟩
        · simpa [allotted, meets, still, afterTicks] using same
        · rw [List.countP_cons_of_pos rfl, ← count]
          simp [allotted, meets, still]
      | stop id =>
        have other : r.id ≠ id := by
          rintro rfl
          simp [meets] at stays
        simp only [meets, other, if_false] at h
        simpa [allotted, meets, other, Turn.isTick] using ih running h

/-- How a run leaves: it ended with a tick, or it was stopped while it was running. -/
inductive Leaves (r : Run) (ticks : List Nat) : Turn → Run → Prop
  | finish {allowance : Nat} (state : (r.afterTicks ticks).state = .finished)
      (fine : (r.afterTicks ticks).error = none) : Leaves r ticks (.tick allowance) (r.afterTicks ticks)
  | fail {allowance : Nat} {n : Nat} {e : Error} (before : List Nat)
      (last : ticks = before ++ [n]) (fault : ((r.afterTicks before).tick n).1 = .error e)
      (state : (r.afterTicks ticks).state = .stopped) (kept : (r.afterTicks ticks).error = some e) :
      Leaves r ticks (.tick allowance) (r.afterTicks ticks)
  | halt (state : (r.afterTicks ticks).state = .running) (fine : (r.afterTicks ticks).error = none) :
      Leaves r ticks (.stop r.id) { r.afterTicks ticks with state := .stopped }

theorem Leaves.tick {n : Nat} {ticks : List Nat} (h : (r.tick n).2.Leaves ticks turn r') :
    r.Leaves (n :: ticks) turn r' := by
  cases h with
  | finish state fine => exact .finish state fine
  | fail before last fault state kept =>
    subst last
    exact .fail (n :: before) rfl fault state kept
  | halt state fine =>
    rw [id_tick]
    exact .halt state fine

/-- A run that does not stay for a turn leaves with it. -/
theorem leaves_of_meets (good : r.Coherent) (running : r.state = .running)
    (leaves : (r.meets turn).2 = false) :
    r.Leaves (r.allotted (turn :: turns)) turn (r.meets turn).1 := by
  cases turn with
  | wait => simp [meets] at leaves
  | tick allowance =>
    have left : (r.tick allowance).2.state ≠ .running := by simpa [meets] using leaves
    have given : r.allotted (.tick allowance :: turns) = [allowance] := by
      simp [allotted, meets, left]
    rw [given]
    rcases (r.does_tick _).leaves good running left with ⟨state, fine⟩ | ⟨state, e, said, kept⟩
    · exact .finish state fine
    · exact .fail [] rfl (refusal_eq_some said) state kept
  | stop id =>
    have same : r.id = id := by
      by_cases same : r.id = id
      · exact same
      · simp [meets, same] at leaves
    subst same
    have active : r.isActive = true := by simp [isActive, running]
    have fine : r.error = none := by
      cases kept : r.error with
      | none => rfl
      | some e =>
        have stopped := good.failed (by simp [kept])
        simp [running] at stopped
    have given : r.allotted (.stop r.id :: turns) = [] := by simp [allotted, meets]
    have halted : r.Leaves [] (.stop r.id) { r.afterTicks [] with state := .stopped } :=
      .halt running fine
    simpa [given, meets, Run.stop, active, afterTicks] using halted

theorem fate_left {later : Nat} (good : r.Coherent) (running : r.state = .running)
    (h : r.fate turns = .left turn r' later) :
    r.Leaves (r.allotted turns) turn r' ∧
      ∃ before behind, turns = before ++ turn :: behind ∧ behind.length = later := by
  induction turns generalizing r with
  | nil => cases h
  | cons first rest ih =>
    cases stays : (r.meets first).2 with
    | false =>
      rw [fate_of_leaves stays] at h
      cases h
      exact ⟨leaves_of_meets good running stays, [], rest, rfl, rfl⟩
    | true =>
      rw [fate_of_stays stays] at h
      have there : r.Leaves (r.allotted (first :: rest)) turn r' ∧
          ∃ before behind, rest = before ++ turn :: behind ∧ behind.length = later := by
        cases first with
        | wait => simpa [allotted, meets] using ih good running h
        | tick allowance =>
          have still : (r.tick allowance).2.state = .running := by simpa [meets] using stays
          obtain ⟨leaves, split⟩ := ih ((r.does_tick _).coherent good) still h
          refine ⟨?_, split⟩
          simpa [allotted, meets, still] using leaves.tick
        | stop id =>
          have other : r.id ≠ id := by
            rintro rfl
            simp [meets] at stays
          simp only [meets, other, if_false] at h
          simpa [allotted, meets, other] using ih good running h
      obtain ⟨leaves, before, behind, rfl, count⟩ := there
      exact ⟨leaves, first :: before, behind, rfl, count⟩

end Run

theorem Session.running_begun {s : Session} {event : Event} {r : Run}
    (h : s.begun? event = some r) : r.Coherent ∧ r.state = .running := by
  cases event with
  | tick | stop => cases h
  | start path stamp file options =>
    have did := (Run.new path stamp options s.config).does_start s.library file
    simp only [begun?] at h
    split at h
    · next run began =>
      cases h
      rw [began] at did
      refine ⟨did.coherent (Run.coherent_new path stamp options s.config), ?_⟩
      cases did
      rfl
    · cases h

theorem Session.running_lives {s : Session} {events : List Event} {life : Run × List Run.Turn}
    (h : life ∈ s.lives events) : life.1.Coherent ∧ life.1.state = .running := by
  induction events generalizing s with
  | nil => simp [lives] at h
  | cons event later ih =>
    rcases List.mem_append.1 h with first | others
    · obtain ⟨r, mem, rfl⟩ := List.mem_map.1 first
      exact running_begun (Option.mem_toList.1 mem)
    · exact ih others

end CursorScript
