import GpuFleet.Frontend.Lttb
import Mathlib.Order.WithBot

/-!
# The smooth feeder

`useSmoothFeeder` feeds a chart.  Every now and then it fetches a batch of records;
those later than the last one seen go to a buffer, from which each tick moves one
record to the visible ones.  The first batch after a reset is shown at once.  What is
visible is cut to a window and thinned.

Fetches may overlap, and a fetch of an earlier run of the effect may complete at any
time; it is dropped.  A fetch that was started before the page was shown again is not:
its batch comes as the first one after the reset.

In every state, the visible records followed by the buffered ones ascend strictly
(`ascending_run`).  The updates React has queued are applied to `visible` at once here,
in their order.
-/

namespace GpuFleet

variable {T K : Type}

/-- What may change from one render to the next. -/
structure SmoothFeederOptions (T K : Type) where
  getY : T → Option Rat
  fetchIntervalMs : Rat
  tickMs : Rat
  maxPoints : Nat
  windowMs : Option Rat
  enabled : Bool
  resetKey : Option K

/-- What the fetch effect depends on. -/
def SmoothFeederOptions.deps (o : SmoothFeederOptions T K) :=
  (o.enabled, o.fetchIntervalMs, o.resetKey, o.maxPoints)

/-- The states and refs of the hook, with the fetches whose answers are awaited. -/
structure SmoothFeeder (T K : Type) where
  options : SmoothFeederOptions T K
  visible : List T := []
  buffer : List T := []
  /-- `-Infinity` is `⊥`. -/
  lastSeenX : WithBot Rat := ⊥
  firstFill : Bool := true
  currentTick : Rat
  lastError : Option String := none
  /-- How often the fetch effect has run. -/
  runs : Nat
  /-- The fetches under way, each with the run of the effect that started it. -/
  fetches : List Nat := []

/-- What the timers, the answers and the page may cause. -/
inductive FeederAction (T K : Type) where
  /-- The interval of the fetch effect. -/
  | interval
  /-- A fetch under way delivers a batch. -/
  | complete (i : Nat) (records : List T)
  | fail (i : Nat) (error : String)
  /-- The timer of the tick effect. -/
  | tick
  /-- The page is shown again. -/
  | visibility
  | render (options : SmoothFeederOptions T K)

namespace SmoothFeeder

/-! ## The ticks -/

/-- `TICK_SPEED_MIN`: a full buffer halves the tick. -/
def tickSpeedMin : Rat := 1 / 2

/-- `TICK_SPEED_MAX`: an empty one stretches it by half. -/
def tickSpeedMax : Rat := 3 / 2

/-- `BUFFER_LOW_THRESHOLD` -/
def bufferLowThreshold : Nat := 2

/-- `BUFFER_HIGH_THRESHOLD` -/
def bufferHighThreshold : Nat := 10

/-- The factor of a tick, linear between the thresholds. -/
def speed (pending : Nat) : Rat :=
  if pending < bufferLowThreshold then tickSpeedMax
  else if bufferHighThreshold < pending then tickSpeedMin
  else
    let t := ((pending : Rat) - bufferLowThreshold) / (bufferHighThreshold - bufferLowThreshold)
    tickSpeedMax - (tickSpeedMax - tickSpeedMin) * t

/-- `Math.round` -/
def roundHalfUp (x : Rat) : Int := ⌊x + 1 / 2⌋

/-- The delay after a tick that leaves `pending` records in the buffer. -/
def nextDelay (tickMs : Rat) (pending : Nat) : Int := roundHalfUp (tickMs * speed pending)

/-! ## What is visible -/

variable (getX : T → Rat)

/-- The records of the last `windowMs`, where there is a window. -/
def slideWindow (windowMs : Option Rat) (all : List T) : List T :=
  match windowMs, all.getLast? with
  | some width, some last => all.filter fun r => getX last - width ≤ getX r
  | _, _ => all

/-- `slice(-cap)`, where there are more than `cap` records -/
def lastRecords (cap : Nat) (all : List T) : List T :=
  if cap < all.length ∧ cap ≠ 0 then all.drop (all.length - cap) else all

/-- More than `maxPoints` records are sampled down. -/
def thin (o : SmoothFeederOptions T K) (all : List T) : List T :=
  if o.maxPoints < all.length then lttbRecords all getX o.getY o.maxPoints else all

/-- What is shown of the visible records and the first batch. -/
def flush (o : SmoothFeederOptions T K) (all : List T) : List T :=
  thin getX o (slideWindow getX o.windowMs all)

/-- What is shown of the visible records and the next one of the buffer. -/
def advance (o : SmoothFeederOptions T K) (appended : List T) : List T :=
  thin getX o
    (lastRecords (o.maxPoints * 2) (slideWindow getX (o.windowMs.map (· * 2)) appended))

/-! ## The steps -/

variable (s : SmoothFeeder T K)

/-- What a change of the options and the page shown again reset. -/
def clear : SmoothFeeder T K :=
  { s with visible := [], buffer := [], lastSeenX := ⊥, firstFill := true }

/-- `runFetch`, as far as its request. -/
def runFetch : SmoothFeeder T K := { s with fetches := s.fetches ++ [s.runs] }

/-- The records of a batch that are later than all seen. -/
def fresh (records : List T) : List T :=
  records.filter fun r => s.lastSeenX < (getX r : WithBot Rat)

/-- The rest of `runFetch`, when the fetch delivers a batch. -/
def deliver (records : List T) : SmoothFeeder T K :=
  let fresh := s.fresh getX records
  match fresh.getLast? with
  | none => { s with lastError := none }
  | some last =>
      if s.firstFill then
        { s with
          lastSeenX := (getX last : WithBot Rat), firstFill := false, lastError := none,
          visible := flush getX s.options (s.visible ++ fresh) }
      else
        { s with
          lastSeenX := (getX last : WithBot Rat), lastError := none,
          buffer := s.buffer ++ fresh }

/-- The effect of this run was cleaned up. -/
def cancelled (run : Nat) : Bool := run ≠ s.runs || !s.options.enabled

/-- A tick moves one record from the buffer to those visible. -/
def tick : SmoothFeeder T K :=
  match s.buffer with
  | [] => { s with currentTick := nextDelay s.options.tickMs 0 }
  | next :: rest =>
      { s with
        visible := advance getX s.options (s.visible ++ [next]), buffer := rest,
        currentTick := nextDelay s.options.tickMs rest.length }

/-- A render and the effects after it. -/
def render [DecidableEq K] (options : SmoothFeederOptions T K) : SmoothFeeder T K :=
  let s' := { s with options := options }
  if s.options.deps = options.deps then s'
  else if options.enabled then runFetch { s'.clear with runs := s.runs + 1 }
  else if s.options.enabled then s'.clear
  else s'

/-- The actions of an effect whose feeder is not enabled change nothing. -/
def step [DecidableEq K] (s : SmoothFeeder T K) : FeederAction T K → SmoothFeeder T K
  | .interval => if s.options.enabled then s.runFetch else s
  | .complete i records =>
      match s.fetches[i]? with
      | none => s
      | some run =>
          let s' := { s with fetches := s.fetches.eraseIdx i }
          if s.cancelled run then s' else s'.deliver getX records
  | .fail i error =>
      match s.fetches[i]? with
      | none => s
      | some _ => { s with fetches := s.fetches.eraseIdx i, lastError := some error }
  | .tick => if s.options.enabled then s.tick getX else s
  | .visibility => if s.options.enabled then s.clear.runFetch else s
  | .render options => s.render options

/-- The first render. -/
def mount (options : SmoothFeederOptions T K) : SmoothFeeder T K :=
  if options.enabled then
    runFetch { options := options, currentTick := options.tickMs, runs := 1 }
  else { options := options, currentTick := options.tickMs, runs := 0 }

/-- The actions in their order, from the first render on. -/
def run [DecidableEq K] (options : SmoothFeederOptions T K) (actions : List (FeederAction T K)) :
    SmoothFeeder T K :=
  actions.foldl (step getX) (mount options)

/-! ## What is cut is a part -/

variable {getX}

/-- The records ascend strictly. -/
def Ascends (getX : T → Rat) (records : List T) : Prop :=
  records.Pairwise fun r r' => getX r < getX r'

theorem slideWindow_sublist (windowMs : Option Rat) (all : List T) :
    (slideWindow getX windowMs all).Sublist all := by
  cases windowMs with
  | none => exact List.Sublist.refl all
  | some width =>
      cases hlast : all.getLast? with
      | none => simp [slideWindow, hlast]
      | some last =>
          simp only [slideWindow, hlast]
          exact List.filter_sublist

theorem lastRecords_sublist (cap : Nat) (all : List T) : (lastRecords cap all).Sublist all := by
  rw [lastRecords]
  split
  · exact List.drop_sublist _ all
  · exact List.Sublist.refl all

theorem thin_sublist (o : SmoothFeederOptions T K) (all : List T) :
    (thin getX o all).Sublist all := by
  rw [thin]
  split
  · exact lttbRecords_sublist all getX o.getY o.maxPoints
  · exact List.Sublist.refl all

theorem flush_sublist (o : SmoothFeederOptions T K) (all : List T) :
    (flush getX o all).Sublist all :=
  (thin_sublist o _).trans (slideWindow_sublist _ all)

theorem advance_sublist (o : SmoothFeederOptions T K) (appended : List T) :
    (advance getX o appended).Sublist appended :=
  (thin_sublist o _).trans ((lastRecords_sublist _ _).trans (slideWindow_sublist _ appended))

/-! ## The invariant -/

/-- The visible and the buffered records ascend strictly up to the last one seen. -/
structure Inv (getX : T → Rat) (s : SmoothFeeder T K) : Prop where
  ascends : Ascends getX (s.visible ++ s.buffer)
  seen : ∀ r ∈ s.visible ++ s.buffer, (getX r : WithBot Rat) ≤ s.lastSeenX
  first : s.firstFill = true → s.buffer = []

variable {s : SmoothFeeder T K}

theorem Inv.of_empty (hvisible : s.visible = []) (hbuffer : s.buffer = []) : s.Inv getX := by
  constructor
  · simp [hvisible, hbuffer, Ascends]
  · simp [hvisible, hbuffer]
  · exact fun _ => hbuffer

/-- Records may be left out. -/
theorem Inv.of_sublist {s' : SmoothFeeder T K} (h : s.Inv getX)
    (hsub : (s'.visible ++ s'.buffer).Sublist (s.visible ++ s.buffer))
    (hseen : s'.lastSeenX = s.lastSeenX) (hfirst : s'.firstFill = true → s'.buffer = []) :
    s'.Inv getX := by
  constructor
  · exact h.ascends.sublist hsub
  · intro r hr
    rw [hseen]
    exact h.seen r (hsub.subset hr)
  · exact hfirst

theorem ascends_fresh {records : List T} (hbatch : Ascends getX records) :
    Ascends getX (s.fresh getX records) :=
  hbatch.sublist List.filter_sublist

theorem lt_of_mem_fresh {records : List T} {r : T} (hr : r ∈ s.fresh getX records) :
    s.lastSeenX < (getX r : WithBot Rat) := by
  have hlater := (List.mem_filter.mp hr).2
  simpa using hlater

/-- The last record of an ascending batch is the latest. -/
theorem le_getLast {records : List T} {last : T} (hbatch : Ascends getX records)
    (hlast : records.getLast? = some last) {r : T} (hr : r ∈ records) : getX r ≤ getX last := by
  obtain ⟨front, rfl⟩ := List.getLast?_eq_some_iff.mp hlast
  rcases List.mem_append.mp hr with hr | hr
  · exact le_of_lt ((List.pairwise_append.mp hbatch).2.2 r hr last (List.mem_singleton_self last))
  · rw [List.mem_singleton.mp hr]

/-- Fresh records may follow all others. -/
theorem Inv.ascends_append {records : List T} (h : s.Inv getX) (hbatch : Ascends getX records) :
    Ascends getX (s.visible ++ s.buffer ++ s.fresh getX records) := by
  refine List.pairwise_append.mpr ⟨h.ascends, ascends_fresh hbatch, ?_⟩
  intro r hr r' hr'
  have hlt : (getX r : WithBot Rat) < (getX r' : WithBot Rat) :=
    lt_of_le_of_lt (h.seen r hr) (lt_of_mem_fresh hr')
  exact WithBot.coe_lt_coe.mp hlt

theorem Inv.seen_append {records : List T} {last : T} (h : s.Inv getX)
    (hbatch : Ascends getX records) (hlast : (s.fresh getX records).getLast? = some last) :
    ∀ r ∈ s.visible ++ s.buffer ++ s.fresh getX records,
      (getX r : WithBot Rat) ≤ (getX last : WithBot Rat) := by
  intro r hr
  have hmem : last ∈ s.fresh getX records := List.mem_of_getLast? hlast
  rcases List.mem_append.mp hr with hr | hr
  · exact (h.seen r hr).trans (lt_of_mem_fresh hmem).le
  · exact WithBot.coe_le_coe.mpr (le_getLast (ascends_fresh hbatch) hlast hr)

theorem Inv.deliver {records : List T} (h : s.Inv getX) (hbatch : Ascends getX records) :
    (s.deliver getX records).Inv getX := by
  rw [SmoothFeeder.deliver]
  have hall := h.ascends_append hbatch
  cases hlast : (s.fresh getX records).getLast? with
  | none => exact h.of_sublist (List.Sublist.refl _) rfl h.first
  | some last =>
      have hseen := h.seen_append hbatch hlast
      simp only
      split
      · next hfirst =>
        have hbuffer : s.buffer = [] := h.first hfirst
        rw [hbuffer, List.append_nil] at hall hseen
        have hsub := @flush_sublist T K getX s.options (s.visible ++ s.fresh getX records)
        constructor
        · show Ascends getX (flush getX s.options _ ++ s.buffer)
          rw [hbuffer, List.append_nil]
          exact hall.sublist hsub
        · intro r hr
          simp only [hbuffer, List.append_nil] at hr
          exact hseen r (hsub.subset hr)
        · exact fun _ => hbuffer
      · next hfirst =>
        constructor
        · simpa using hall
        · simpa using hseen
        · exact fun hf => absurd hf hfirst

theorem Inv.tick (h : s.Inv getX) : (s.tick getX).Inv getX := by
  rw [SmoothFeeder.tick]
  cases hbuffer : s.buffer with
  | nil => exact h.of_sublist (by simp [hbuffer]) rfl fun _ => rfl
  | cons next rest =>
      refine h.of_sublist ?_ rfl fun hfirst => ?_
      · show (advance getX s.options (s.visible ++ [next]) ++ rest).Sublist _
        rw [hbuffer, List.append_cons s.visible next rest]
        exact (advance_sublist s.options _).append (List.Sublist.refl rest)
      · rw [h.first hfirst] at hbuffer
        cases hbuffer

theorem Inv.runFetch (h : s.Inv getX) : s.runFetch.Inv getX :=
  h.of_sublist (List.Sublist.refl _) rfl h.first

theorem inv_clear (s : SmoothFeeder T K) : s.clear.Inv getX := Inv.of_empty rfl rfl

theorem inv_mount (options : SmoothFeederOptions T K) : (mount options).Inv getX := by
  rw [mount]
  split
  · exact Inv.of_empty rfl rfl
  · exact Inv.of_empty rfl rfl

variable [DecidableEq K]

theorem Inv.render (h : s.Inv getX) (options : SmoothFeederOptions T K) :
    (s.render options).Inv getX := by
  rw [SmoothFeeder.render]
  split_ifs
  · exact h.of_sublist (List.Sublist.refl _) rfl h.first
  · exact Inv.of_empty rfl rfl
  · exact inv_clear _
  · exact h.of_sublist (List.Sublist.refl _) rfl h.first

theorem Inv.step (h : s.Inv getX) (action : FeederAction T K)
    (hbatch : ∀ i records, action = .complete i records → Ascends getX records) :
    (s.step getX action).Inv getX := by
  cases action with
  | interval =>
      simp only [SmoothFeeder.step]
      split
      · exact h.runFetch
      · exact h
  | complete i records =>
      simp only [SmoothFeeder.step]
      cases s.fetches[i]? with
      | none => exact h
      | some run =>
          have hrest : Inv getX { s with fetches := s.fetches.eraseIdx i } :=
            h.of_sublist (List.Sublist.refl _) rfl h.first
          simp only
          split
          · exact hrest
          · exact hrest.deliver (hbatch i records rfl)
  | fail i error =>
      simp only [SmoothFeeder.step]
      cases s.fetches[i]? with
      | none => exact h
      | some _ => exact h.of_sublist (List.Sublist.refl _) rfl h.first
  | tick =>
      simp only [SmoothFeeder.step]
      split
      · exact h.tick
      · exact h
  | visibility =>
      simp only [SmoothFeeder.step]
      split
      · exact (inv_clear s).runFetch
      · exact h
  | render options => exact h.render options

theorem Inv.foldl {actions : List (FeederAction T K)}
    (hbatch : ∀ i records, .complete i records ∈ actions → Ascends getX records)
    (h : s.Inv getX) : (actions.foldl (SmoothFeeder.step getX) s).Inv getX := by
  induction actions generalizing s with
  | nil => exact h
  | cons action actions ih =>
      rw [List.foldl_cons]
      refine ih (fun i records hmem => hbatch i records (List.mem_cons_of_mem _ hmem)) ?_
      refine h.step action fun i records he => hbatch i records ?_
      rw [he]
      exact List.mem_cons_self

/-- When every batch ascends strictly, so do the visible records followed by the buffered
ones, in every state. -/
theorem ascending_run (options : SmoothFeederOptions T K) (actions : List (FeederAction T K))
    (hbatch : ∀ i records, .complete i records ∈ actions → Ascends getX records) :
    Ascends getX ((run getX options actions).visible ++ (run getX options actions).buffer) :=
  (Inv.foldl hbatch (inv_mount options)).ascends

/-- Two fetches that overlap, with a reset between their deliveries. -/
def overlapping : List (FeederAction Rat Unit) :=
  [.interval, .complete 0 [1, 2, 3], .interval, .complete 0 [2, 3, 4, 5], .tick, .visibility,
    .complete 0 [3, 4, 5], .complete 0 [4, 5, 6, 7], .tick]

theorem ascends_overlapping : ∀ i records, .complete i records ∈ overlapping →
    Ascends id records := by
  intro i records h
  simp only [overlapping, List.mem_cons, List.not_mem_nil, FeederAction.complete.injEq,
    reduceCtorEq, false_or, or_false] at h
  rcases h with ⟨-, rfl⟩ | ⟨-, rfl⟩ | ⟨-, rfl⟩ | ⟨-, rfl⟩ <;> simp [Ascends] <;> norm_num

theorem ascending_run_overlapping : ∃ options : SmoothFeederOptions Rat Unit,
    (run id options overlapping).visible = [3, 4, 5, 6] ∧
      Ascends id ((run id options overlapping).visible ++ (run id options overlapping).buffer) :=
  ⟨⟨some, 5000, 1000, 4, none, true, none⟩, by decide +kernel,
    ascending_run _ overlapping ascends_overlapping⟩

end SmoothFeeder

end GpuFleet
