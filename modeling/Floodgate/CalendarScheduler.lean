import Floodgate.EventSchedulers
import Floodgate.Library.CalendarQueue

/-! `CalendarScheduler`: buckets of one width, the scan of a year, and the changes of width and
number. -/

namespace Floodgate

open Outcome LabelledRun CalendarQueue

structure CalendarScheduler where
  buckets : Nat → List Event
  nBuckets : Nat
  width : Nat
  lastBucket : Nat
  bucketTop : Nat
  lastPrio : Nat
  qSize : Nat

namespace CalendarScheduler

/-- `Init` with a width that is not zero. -/
def init (nBuckets width startPrio qSize : Nat) : CalendarScheduler where
  buckets := fun _ => []
  nBuckets := nBuckets
  width := width
  lastBucket := startPrio / width % nBuckets
  bucketTop := (startPrio / width + 1) * width % 2 ^ 64
  lastPrio := startPrio
  qSize := qSize

def events (s : CalendarScheduler) : List Event := items s.buckets s.nBuckets

def hash (s : CalendarScheduler) (ts : Nat) : Nat := ts / s.width % s.nBuckets

def doInsert (s : CalendarScheduler) (ev : Event) : CalendarScheduler :=
  let bucket := s.hash ev.key.ts
  { s with buckets :=
      replace s.buckets bucket (SortedQueue.insert Event.order ev (s.buckets bucket)) }

/-- The front of a bucket if it is before the end of the day. -/
def today (s : CalendarScheduler) (i bucketTop : Nat) : Option Event :=
  match s.buckets i with
  | [] => none
  | next :: _ => if next.key.ts < bucketTop then some next else none

/-- The front of a bucket if it is before the least one so far; at first, before the limit. -/
def lesser (s : CalendarScheduler) (limit : Nat ×ₗ Nat) (i : Nat) (least : Option (Event × Nat)) :
    Option (Event × Nat) :=
  match s.buckets i with
  | [] => least
  | next :: _ =>
      if next.order < (least.map fun found => found.1.order).getD limit then some (next, i)
      else least

inductive Found where
  | today (i bucketTop : Nat) (next : Event)
  | least (least : Option (Event × Nat))

def scan (s : CalendarScheduler) (limit : Nat ×ₗ Nat) :
    Nat → Nat → Nat → Option (Event × Nat) → Found
  | 0, _, _, least => .least least
  | rounds + 1, i, bucketTop, least =>
      match s.today i bucketTop with
      | some next => .today i bucketTop next
      | none =>
          if (i + 1) % s.nBuckets = s.lastBucket then .least (s.lesser limit i least)
          else s.scan limit rounds ((i + 1) % s.nBuckets) ((bucketTop + s.width) % 2 ^ 64)
            (s.lesser limit i least)

def pop (s : CalendarScheduler) (i : Nat) : Nat → List Event :=
  replace s.buckets i (s.buckets i).tail

/-- Without a least front there is no bucket to take it from. -/
def doRemoveNext (s : CalendarScheduler) : Except SchedulerFailure (Event × CalendarScheduler) :=
  if s.qSize = 0 then .error .notEmpty
  else match s.scan (toLex (2 ^ 64 - 1, 0)) s.nBuckets s.lastBucket s.bucketTop none with
    | .today i bucketTop next =>
        .ok (next, { s with
          lastBucket := i
          lastPrio := next.key.ts
          bucketTop := bucketTop
          buckets := s.pop i })
    | .least (some (next, i)) =>
        .ok (next, { s with
          lastPrio := next.key.ts
          lastBucket := s.hash next.key.ts
          bucketTop := (next.key.ts / s.width + 1) * s.width % 2 ^ 64
          buckets := s.pop i })
    | .least none => .error .notEmpty

def removeSamples :
    Nat → CalendarScheduler → Except SchedulerFailure (List Event × CalendarScheduler)
  | 0, s => .ok ([], s)
  | n + 1, s => do
      let next ← s.doRemoveNext
      let rest ← removeSamples n next.2
      .ok (next.1 :: rest.1, rest.2)

/-- The times between neighbours, in 64 bits. -/
def separations : List Event → List Nat
  | cur :: next :: rest =>
      (next.key.ts + 2 ^ 64 - cur.key.ts) % 2 ^ 64 :: separations (next :: rest)
  | _ => []

def nSamples (qSize : Nat) : Nat := min (if qSize ≤ 5 then qSize else 5 + qSize / 10) 25

/-- Three times the sum of the separations that are at most twice their average; 32 bits of it are
returned. -/
def newWidth (samples : List Event) (nSamples : Nat) : Nat :=
  let twiceAvg := (separations samples).sum % 2 ^ 64 / (nSamples - 1) * 2 % 2 ^ 64
  let total := ((separations samples).filter (· ≤ twiceAvg)).sum % 2 ^ 64
  max (total * 3 % 2 ^ 64) 1 % 2 ^ 32

/-- The samples leave the queue and come back, and the place of the last removal is restored. -/
def calculateNewWidth (s : CalendarScheduler) :
    Except SchedulerFailure (Nat × CalendarScheduler) :=
  if s.qSize < 2 then .ok (1, s)
  else do
    let taken ← removeSamples (nSamples s.qSize) s
    let back := taken.1.foldl doInsert taken.2
    .ok (newWidth taken.1 (nSamples s.qSize), { back with
      lastBucket := s.lastBucket
      bucketTop := s.bucketTop
      lastPrio := s.lastPrio })

/-- `Init` divides by the new width. -/
def doResize (s : CalendarScheduler) (newSize newWidth : Nat) :
    Except SchedulerFailure CalendarScheduler :=
  if newWidth = 0 then .error .widthPositive
  else .ok (s.events.foldl doInsert (init newSize newWidth s.lastPrio s.qSize))

def resize (s : CalendarScheduler) (newSize : Nat) : Except SchedulerFailure CalendarScheduler := do
  let width ← s.calculateNewWidth
  width.2.doResize newSize width.1

def resizeUp (s : CalendarScheduler) : Except SchedulerFailure CalendarScheduler :=
  if s.qSize > s.nBuckets * 2 ∧ s.nBuckets < 32768 then s.resize (s.nBuckets * 2) else .ok s

def resizeDown (s : CalendarScheduler) : Except SchedulerFailure CalendarScheduler :=
  if s.qSize < s.nBuckets / 2 then s.resize (s.nBuckets / 2) else .ok s

def insert (s : CalendarScheduler) (ev : Event) : Except SchedulerFailure CalendarScheduler :=
  let inserted := s.doInsert ev
  { inserted with qSize := inserted.qSize + 1 }.resizeUp

/-- Without a least front the event of all ones is returned. -/
def peekNext (s : CalendarScheduler) : Except SchedulerFailure Event :=
  if s.qSize = 0 then .error .notEmpty
  else match s.scan (toLex (2 ^ 64 - 1, 2 ^ 32 - 1)) s.nBuckets s.lastBucket s.bucketTop none with
    | .today _ _ next => .ok next
    | .least (some (next, _)) => .ok next
    | .least none => .ok ⟨0, ⟨2 ^ 64 - 1, 2 ^ 32 - 1, 0⟩⟩

def removeNext (s : CalendarScheduler) : Except SchedulerFailure (Event × CalendarScheduler) :=
  if s.qSize = 0 then .error .notEmpty
  else do
    let next ← s.doRemoveNext
    let after ← { next.2 with qSize := next.2.qSize - 1 }.resizeDown
    .ok (next.1, after)

def remove (s : CalendarScheduler) (ev : Event) : Except SchedulerFailure CalendarScheduler :=
  let bucket := s.hash ev.key.ts
  if s.qSize = 0 then .error .notEmpty
  else match SortedQueue.take (fun other => other.key.uid = ev.key.uid) (s.buckets bucket) with
    | none => .error .eventKnown
    | some (found, rest) =>
        if ev.impl = found.impl then
          { s with buckets := replace s.buckets bucket rest, qSize := s.qSize - 1 }.resizeDown
        else .error .sameImpl

end CalendarScheduler

def calendarScheduler : Scheduler CalendarScheduler where
  empty := CalendarScheduler.init 2 1 0 0
  events := CalendarScheduler.events
  insert := CalendarScheduler.insert
  peekNext := CalendarScheduler.peekNext
  removeNext := CalendarScheduler.removeNext
  remove := CalendarScheduler.remove

namespace CalendarScheduler

open Scheduler

def day (s : CalendarScheduler) (ev : Event) : Nat := ev.key.ts / s.width

/-- Every event is in its bucket. The number of buckets is doubled below 32768 only, and a width has
32 bits. -/
structure Sound (s : CalendarScheduler) : Prop where
  some : 0 < s.nBuckets
  few : s.nBuckets < 2 ^ 16
  wide : 0 < s.width
  narrow : s.width < 2 ^ 32
  placed : Placed Event.order s.day s.buckets s.nBuckets

structure Clocked (s : CalendarScheduler) : Prop where
  bucket : s.lastBucket = s.hash s.lastPrio
  top : s.bucketTop = (s.lastPrio / s.width + 1) * s.width
  early : s.lastPrio < 2 ^ 63
  after : ∀ ev ∈ s.events, s.lastPrio ≤ ev.key.ts ∧ ev.key.ts < 2 ^ 63

variable {s : CalendarScheduler} {ev : Event}

theorem day_mono (s : CalendarScheduler) (first second : Event)
    (below : first.order ≤ second.order) : s.day first ≤ s.day second :=
  Nat.div_le_div_right (Event.order_le_ts below)

/-- The end of a day within a year of a time below `2 ^ 63` has 64 bits. -/
theorem top_fits (sound : s.Sound) {ts j : Nat} (early : ts < 2 ^ 63) (year : j ≤ s.nBuckets) :
    (ts / s.width + 1 + j) * s.width < 2 ^ 64 := by
  have down : ts / s.width * s.width ≤ ts := Nat.div_mul_le_self ts s.width
  have up : (1 + j) * s.width ≤ 2 ^ 16 * 2 ^ 32 :=
    Nat.mul_le_mul (by have := sound.few; omega) sound.narrow.le
  calc (ts / s.width + 1 + j) * s.width
      = ts / s.width * s.width + (1 + j) * s.width := by rw [Nat.add_assoc, Nat.add_mul]
    _ < 2 ^ 64 := by omega

theorem doInsert_events (sound : s.Sound) (ev : Event) :
    (s.doInsert ev).events.Perm (ev :: s.events) :=
  items_put (Nat.mod_lt _ sound.some)

theorem doInsert_sound (sound : s.Sound) (fresh : (SchedulerCall.insert ev).Legal s.events) :
    (s.doInsert ev).Sound :=
  ⟨sound.some, sound.few, sound.wide, sound.narrow,
    sound.placed.put sound.some (Distinct.fresh_order fresh)⟩

theorem doInsert_all_buckets (list : List Event) (s : CalendarScheduler) :
    list.foldl doInsert s = { s with buckets := (list.foldl doInsert s).buckets } := by
  induction list generalizing s with
  | nil => rfl
  | cons first rest ih =>
      rw [List.foldl_cons, ih (s.doInsert first)]
      rfl

theorem doInsert_all (list : List Event) (sound : s.Sound)
    (distinct : Distinct (list ++ s.events)) :
    (list.foldl doInsert s).Sound ∧ (list.foldl doInsert s).events.Perm (list ++ s.events) := by
  induction list generalizing s with
  | nil => exact ⟨sound, .refl _⟩
  | cons first rest ih =>
      obtain ⟨apart, later⟩ := List.pairwise_cons.mp distinct
      have perm := doInsert_events sound first
      have fresh : (SchedulerCall.insert first).Legal s.events := fun other member =>
        (apart other (List.mem_append_right _ member)).symm
      have moved : (rest ++ (s.doInsert first).events).Perm (first :: (rest ++ s.events)) :=
        (perm.append_left rest).trans List.perm_middle
      obtain ⟨kept, whole⟩ := ih (doInsert_sound sound fresh) (distinct.perm moved.symm)
      exact ⟨kept, whole.trans moved⟩

def Found.Least (s : CalendarScheduler) : Found → Prop
  | .today i bucketTop next => i < s.nBuckets ∧ (∃ rest, s.buckets i = next :: rest) ∧
      i = s.hash next.key.ts ∧ bucketTop = (s.day next + 1) * s.width ∧
      ∀ other ∈ s.events, next.order ≤ other.order
  | .least none => False
  | .least (some (next, i)) => i < s.nBuckets ∧ (∃ rest, s.buckets i = next :: rest) ∧
      ∀ other ∈ s.events, next.order ≤ other.order

def Beyond (s : CalendarScheduler) (limit : Nat ×ₗ Nat) : Prop := ∀ ev ∈ s.events, ev.order < limit

theorem lesser_step {limit : Nat ×ₗ Nat} {first j : Nat} {least : Option (Event × Nat)}
    (some : 0 < s.nBuckets) (beyond : s.Beyond limit)
    (found : LeastFront Event.order s.buckets s.nBuckets first j least) :
    LeastFront Event.order s.buckets s.nBuckets first (j + 1)
      (s.lesser limit ((first + j) % s.nBuckets) least) := by
  have inside : (first + j) % s.nBuckets < s.nBuckets := Nat.mod_lt _ some
  have last {k : Nat} (bound : k < j + 1) : k < j ∨ k = j := by omega
  unfold lesser
  cases front : s.buckets ((first + j) % s.nBuckets) with
  | nil =>
      cases least with
      | none =>
          intro k bound
          rcases last bound with below | rfl
          · exact found k below
          · exact front
      | some pair =>
          refine ⟨found.1, fun k bound next rest here => ?_⟩
          rcases last bound with below | rfl
          · exact found.2 k below next rest here
          · rw [front] at here
            contradiction
  | cons next rest =>
      have member : next ∈ s.events := mem_items.mpr ⟨_, inside, by rw [front]; simp⟩
      cases least with
      | none =>
          dsimp only [Option.map_none, Option.getD_none]
          rw [if_pos (beyond next member)]
          refine ⟨⟨inside, rest, front⟩, fun k bound other tail here => ?_⟩
          rcases last bound with below | rfl
          · rw [found k below] at here
            contradiction
          · rw [front] at here
            rw [(List.cons.inj here).1]
      | some pair =>
          dsimp only [Option.map_some, Option.getD_some]
          split
          · rename_i less
            refine ⟨⟨inside, rest, front⟩, fun k bound other tail here => ?_⟩
            rcases last bound with below | rfl
            · exact less.le.trans (found.2 k below other tail here)
            · rw [front] at here
              rw [(List.cons.inj here).1]
          · rename_i more
            refine ⟨found.1, fun k bound other tail here => ?_⟩
            rcases last bound with below | rfl
            · exact found.2 k below other tail here
            · rw [front] at here
              rw [← (List.cons.inj here).1]
              exact not_lt.mp more

/-- The scan stands at day `first + j`, and no event is of an earlier day. -/
theorem scan_least {limit : Nat ×ₗ Nat} (sound : s.Sound) (clocked : s.Clocked)
    (some : s.events ≠ []) (beyond : s.Beyond limit) (rounds : Nat) {first j : Nat}
    {least : Option (Event × Nat)} (start : first = s.lastPrio / s.width)
    (year : rounds + j = s.nBuckets) (more : 0 < rounds)
    (after : ∀ other ∈ s.events, first + j ≤ s.day other)
    (found : LeastFront Event.order s.buckets s.nBuckets first j least) :
    (s.scan limit rounds ((first + j) % s.nBuckets) ((first + j + 1) * s.width) least).Least s := by
  induction rounds generalizing j least with
  | zero => omega
  | succ rounds ih =>
      have inside : (first + j) % s.nBuckets < s.nBuckets := Nat.mod_lt _ sound.some
      have next_found := lesser_step sound.some beyond found
      unfold scan
      cases now : s.today ((first + j) % s.nBuckets) ((first + j + 1) * s.width) with
      | some next =>
          unfold today at now
          split at now
          · contradiction
          · rename_i next' rest front
            split at now
            · rename_i before
              obtain rfl := Option.some.inj now
              have member : next' ∈ s.events := mem_items.mpr ⟨_, inside, by rw [front]; simp⟩
              have low := after next' member
              have high : s.day next' < first + j + 1 :=
                (Nat.div_lt_iff_lt_mul sound.wide).mpr before
              have same : s.day next' = first + j := by omega
              refine ⟨inside, ⟨rest, front⟩, ?_, by rw [same], ?_⟩
              · show _ = s.day next' % s.nBuckets
                rw [same]
              · exact sound.placed.today_least (day_mono s) after sound.some front (by omega)
            · contradiction
      | none =>
          have later : ∀ next rest, s.buckets ((first + j) % s.nBuckets) = next :: rest →
              first + j < s.day next := by
            intro next rest front
            unfold today at now
            rw [front] at now
            dsimp only at now
            split at now
            · contradiction
            · rename_i beyond
              have := (Nat.le_div_iff_mul_le sound.wide).mpr (not_lt.mp beyond)
              exact this
          have tomorrow := sound.placed.tomorrow (day_mono s) after later
          have back : s.lastBucket = first % s.nBuckets := by
            rw [clocked.bucket, start]
            rfl
          dsimp only
          rw [back, Nat.mod_add_mod]
          by_cases whole : j + 1 = s.nBuckets
          · rw [if_pos ((year_again (by omega)).mpr whole)]
            rw [whole] at next_found
            obtain ⟨item, i, same⟩ := next_found.some_of_items some
            rw [same] at next_found ⊢
            exact ⟨next_found.1.1, next_found.1.2, next_found.whole sound.placed⟩
          · rw [if_neg (mt (year_again (by omega)).mp whole)]
            have fits := top_fits sound clocked.early (show j + 1 ≤ s.nBuckets by omega)
            rw [← start, show first + 1 + (j + 1) = first + (j + 1) + 1 by omega] at fits
            have wrap : ((first + j + 1) * s.width + s.width) % 2 ^ 64 =
                (first + (j + 1) + 1) * s.width := by
              rw [← Nat.succ_mul]
              exact Nat.mod_eq_of_lt fits
            rw [wrap]
            exact ih (j := j + 1) (by omega) (by omega) tomorrow next_found

theorem scan_found {limit : Nat ×ₗ Nat} (sound : s.Sound) (clocked : s.Clocked)
    (some : s.events ≠ []) (beyond : s.Beyond limit) :
    (s.scan limit s.nBuckets s.lastBucket s.bucketTop none).Least s := by
  have after : ∀ other ∈ s.events, s.lastPrio / s.width + 0 ≤ s.day other :=
    fun other member => Nat.div_le_div_right (clocked.after other member).1
  have nothing : LeastFront Event.order s.buckets s.nBuckets (s.lastPrio / s.width) 0 none :=
    fun _ bound => absurd bound (Nat.not_lt_zero _)
  rw [clocked.bucket, clocked.top]
  exact scan_least sound clocked some beyond s.nBuckets rfl rfl sound.some after nothing

theorem beyond_limit (clocked : s.Clocked) (uid : Nat) : s.Beyond (toLex (2 ^ 64 - 1, uid)) := by
  intro ev member
  have early := (clocked.after ev member).2
  exact Prod.Lex.lt_iff.mpr (.inl (show ev.key.ts < 2 ^ 64 - 1 by omega))

theorem pop_events {i : Nat} {next : Event} {rest : List Event} (inside : i < s.nBuckets)
    (front : s.buckets i = next :: rest) :
    s.events.Perm (next :: items (s.pop i) s.nBuckets) := by
  refine items_taken inside ?_
  rw [front]
  exact .refl _

theorem doRemoveNext_clocked {next : Event} {after : CalendarScheduler}
    (clocked : s.Clocked) (perm : s.events.Perm (next :: after.events))
    (least : ∀ other ∈ s.events, next.order ≤ other.order) (width : after.width = s.width)
    (buckets : after.nBuckets = s.nBuckets) (prio : after.lastPrio = next.key.ts)
    (bucket : after.lastBucket = s.hash next.key.ts)
    (top : after.bucketTop = (s.day next + 1) * s.width) : after.Clocked := by
  have member : next ∈ s.events := perm.mem_iff.mpr List.mem_cons_self
  refine ⟨?_, ?_, ?_, fun ev here => ?_⟩
  · rw [bucket, prio]
    unfold hash
    rw [width, buckets]
  · rw [top, prio, width]
    rfl
  · rw [prio]
    exact (clocked.after next member).2
  · have old : ev ∈ s.events := perm.mem_iff.mpr (List.mem_cons_of_mem _ here)
    rw [prio]
    exact ⟨Event.order_le_ts (least ev old), (clocked.after ev old).2⟩

/-- What `DoRemoveNext` leaves unchanged. -/
structure Keeps (s after : CalendarScheduler) : Prop where
  nBuckets : after.nBuckets = s.nBuckets
  width : after.width = s.width
  qSize : after.qSize = s.qSize

theorem doRemoveNext_meets (sound : s.Sound) (clocked : s.Clocked) (some : s.events ≠ [])
    (counted : s.qSize ≠ 0) :
    ∃ next after, s.doRemoveNext = .ok (next, after) ∧ s.events.Perm (next :: after.events) ∧
      (∀ other ∈ s.events, next.order ≤ other.order) ∧ after.Sound ∧ after.Clocked ∧
      after.lastPrio = next.key.ts ∧ Keeps s after := by
  have found := scan_found sound clocked some (beyond_limit clocked 0)
  unfold doRemoveNext
  rw [if_neg counted]
  cases scanned : s.scan (toLex (2 ^ 64 - 1, 0)) s.nBuckets s.lastBucket s.bucketTop none with
  | today i bucketTop next =>
      rw [scanned] at found
      obtain ⟨inside, ⟨rest, front⟩, place, top, least⟩ := found
      have perm := pop_events inside front
      refine ⟨next, _, rfl, perm, least, ?_, ?_, rfl, ⟨rfl, rfl, rfl⟩⟩
      · exact ⟨sound.some, sound.few, sound.wide, sound.narrow,
          sound.placed.less (List.tail_sublist _)⟩
      · exact doRemoveNext_clocked clocked perm least rfl rfl rfl place top
  | least least =>
      rw [scanned] at found
      cases least with
      | none => exact found.elim
      | some pair =>
          obtain ⟨next, i⟩ := pair
          obtain ⟨inside, ⟨rest, front⟩, least⟩ := found
          have perm := pop_events inside front
          have member : next ∈ s.events := perm.mem_iff.mpr List.mem_cons_self
          have fits := top_fits sound (clocked.after next member).2 (Nat.zero_le _)
          refine ⟨next, _, rfl, perm, least, ?_, ?_, rfl, ⟨rfl, rfl, rfl⟩⟩
          · exact ⟨sound.some, sound.few, sound.wide, sound.narrow,
              sound.placed.less (List.tail_sublist _)⟩
          · exact doRemoveNext_clocked clocked perm least rfl rfl rfl rfl
              (Nat.mod_eq_of_lt fits)

theorem removeSamples_meets (count : Nat) (sound : s.Sound) (clocked : s.Clocked)
    (enough : count ≤ s.events.length) (counted : s.qSize ≠ 0) :
    ∃ samples after, removeSamples count s = .ok (samples, after) ∧
      s.events.Perm (samples ++ after.events) ∧ after.Sound ∧ Keeps s after := by
  induction count generalizing s with
  | zero => exact ⟨[], s, rfl, .refl _, sound, ⟨rfl, rfl, rfl⟩⟩
  | succ count ih =>
      have some : s.events ≠ [] := List.ne_nil_of_length_pos (by omega)
      obtain ⟨next, middle, success, perm, -, kept, ticks, -, same⟩ :=
        doRemoveNext_meets sound clocked some counted
      have length := perm.length_eq
      rw [List.length_cons] at length
      obtain ⟨rest, after, later, whole, done, alike⟩ :=
        ih kept ticks (by omega) (by rw [same.qSize]; exact counted)
      refine ⟨next :: rest, after, ?_, perm.trans (whole.cons next), done,
        ⟨alike.nBuckets.trans same.nBuckets, alike.width.trans same.width,
          alike.qSize.trans same.qSize⟩⟩
      unfold removeSamples
      simp only [success, ok_bind, later]

structure Inv (s : CalendarScheduler) : Prop where
  sound : s.Sound
  clocked : s.Clocked
  counted : s.qSize = s.events.length

def passed (time : Nat) : SchedulerCall × Option Event → Nat
  | (.removeNext, some ev) => ev.key.ts
  | _ => time

/-- An inserted event is not before the last one that was removed. -/
def InTime (time : Nat) : SchedulerCall → Prop
  | .insert ev => time ≤ ev.key.ts ∧ ev.key.ts < 2 ^ 63
  | _ => True

def Same (s after : CalendarScheduler) : Prop :=
  after.Inv ∧ s.events.Perm after.events ∧ after.lastPrio = s.lastPrio

theorem nSamples_le (size : Nat) : nSamples size ≤ size := by
  unfold nSamples
  split
  · omega
  · omega

theorem newWidth_lt (samples : List Event) (count : Nat) : newWidth samples count < 2 ^ 32 :=
  Nat.mod_lt _ (by decide)

theorem calculateNewWidth_meets (inv : s.Inv) (distinct : Distinct s.events) :
    ∃ width after, s.calculateNewWidth = .ok (width, after) ∧ width < 2 ^ 32 ∧ Same s after ∧
      after.qSize = s.qSize := by
  unfold calculateNewWidth
  split
  · exact ⟨1, s, rfl, by decide, ⟨inv, .refl _, rfl⟩, rfl⟩
  · rename_i several
    have enough : nSamples s.qSize ≤ s.events.length := by
      rw [← inv.counted]
      exact nSamples_le s.qSize
    obtain ⟨samples, rest, success, perm, sound, same⟩ :=
      removeSamples_meets _ inv.sound inv.clocked enough (by omega)
    obtain ⟨back, whole⟩ := doInsert_all samples sound (distinct.perm perm)
    have fields := doInsert_all_buckets samples rest
    generalize put_eq : samples.foldl doInsert rest = put at back whole fields
    have buckets : put.nBuckets = s.nBuckets := by rw [fields]; exact same.nBuckets
    have width : put.width = s.width := by rw [fields]; exact same.width
    have size : put.qSize = s.qSize := by rw [fields]; exact same.qSize
    have all : s.events.Perm put.events := perm.trans whole.symm
    refine ⟨newWidth samples (nSamples s.qSize),
      { put with lastBucket := s.lastBucket, bucketTop := s.bucketTop, lastPrio := s.lastPrio },
      by simp only [success, ok_bind, put_eq], newWidth_lt _ _, ⟨⟨?_, ?_, ?_⟩, all, rfl⟩, size⟩
    · exact ⟨back.some, back.few, back.wide, back.narrow, back.placed⟩
    · refine ⟨?_, ?_, inv.clocked.early, fun ev member => ?_⟩
      · show s.lastBucket = s.lastPrio / put.width % put.nBuckets
        rw [width, buckets]
        exact inv.clocked.bucket
      · show s.bucketTop = (s.lastPrio / put.width + 1) * put.width
        rw [width]
        exact inv.clocked.top
      · exact inv.clocked.after ev (all.mem_iff.mpr member)
    · show put.qSize = put.events.length
      rw [size, ← all.length_eq]
      exact inv.counted

theorem init_sound {nBuckets width startPrio qSize : Nat} (some : 0 < nBuckets)
    (few : nBuckets < 2 ^ 16) (wide : 0 < width) (narrow : width < 2 ^ 32) :
    (init nBuckets width startPrio qSize).Sound :=
  ⟨some, few, wide, narrow, .none⟩

theorem init_events (nBuckets width startPrio qSize : Nat) :
    (init nBuckets width startPrio qSize).events = [] :=
  items_none

/-- Only a width of zero fails. -/
theorem resize_meets (inv : s.Inv) (distinct : Distinct s.events) {newSize : Nat}
    (some : 0 < newSize) (few : newSize < 2 ^ 16) :
    Holds (fun failure => failure = .widthPositive) (Same s) (s.resize newSize) := by
  obtain ⟨width, middle, success, narrow, ⟨kept, perm, prio⟩, size⟩ :=
    calculateNewWidth_meets inv distinct
  unfold resize
  simp only [success, ok_bind]
  unfold doResize
  split
  · rfl
  · rename_i positive
    have fresh : (init newSize width middle.lastPrio middle.qSize).Sound :=
      init_sound some few (Nat.pos_of_ne_zero positive) narrow
    have none := init_events newSize width middle.lastPrio middle.qSize
    have apart : Distinct (middle.events ++
        (init newSize width middle.lastPrio middle.qSize).events) := by
      rw [none, List.append_nil]
      exact distinct.perm perm
    obtain ⟨sound, whole⟩ := doInsert_all middle.events fresh apart
    have fields := doInsert_all_buckets middle.events
      (init newSize width middle.lastPrio middle.qSize)
    rw [none, List.append_nil] at whole
    generalize middle.events.foldl doInsert (init newSize width middle.lastPrio middle.qSize) =
      after at sound whole fields
    have last : after.lastPrio = middle.lastPrio := by rw [fields]; rfl
    have all : s.events.Perm after.events := perm.trans whole.symm
    refine ⟨⟨sound, ⟨?_, ?_, ?_, fun ev member => ?_⟩, ?_⟩, all, last.trans prio⟩
    · rw [fields]
      rfl
    · have top := top_fits fresh kept.clocked.early (Nat.zero_le _)
      rw [fields]
      exact Nat.mod_eq_of_lt top
    · rw [last]
      exact kept.clocked.early
    · rw [last]
      exact kept.clocked.after ev (whole.mem_iff.mp member)
    · rw [whole.length_eq, fields]
      exact kept.counted

theorem resizeUp_meets (inv : s.Inv) (distinct : Distinct s.events) :
    Holds (fun failure => failure = .widthPositive) (Same s) s.resizeUp := by
  unfold resizeUp
  split
  · exact resize_meets inv distinct (by have := inv.sound.some; omega) (by omega)
  · exact ⟨inv, .refl _, rfl⟩

theorem resizeDown_meets (inv : s.Inv) (distinct : Distinct s.events) :
    Holds (fun failure => failure = .widthPositive) (Same s) s.resizeDown := by
  unfold resizeDown
  split
  · exact resize_meets inv distinct (by omega) (by have := inv.sound.few; omega)
  · exact ⟨inv, .refl _, rfl⟩

theorem Clocked.resized (clocked : s.Clocked) (size : Nat) :
    ({ s with qSize := size } : CalendarScheduler).Clocked :=
  ⟨clocked.bucket, clocked.top, clocked.early, clocked.after⟩

theorem Sound.resized (sound : s.Sound) (size : Nat) :
    ({ s with qSize := size } : CalendarScheduler).Sound :=
  ⟨sound.some, sound.few, sound.wide, sound.narrow, sound.placed⟩

theorem insert_meets (inv : s.Inv) (distinct : Distinct s.events)
    (legal : (SchedulerCall.insert ev).Legal s.events) (time : InTime s.lastPrio (.insert ev)) :
    Holds (fun failure => failure = .widthPositive)
      (fun after => after.Inv ∧ after.events.Perm (ev :: s.events) ∧ after.lastPrio = s.lastPrio)
      (s.insert ev) := by
  have sound := doInsert_sound inv.sound legal
  have perm := doInsert_events inv.sound ev
  have clocked : (s.doInsert ev).Clocked := by
    refine ⟨inv.clocked.bucket, inv.clocked.top, inv.clocked.early, fun other member => ?_⟩
    rcases List.mem_cons.mp (perm.mem_iff.mp member) with rfl | old
    · exact time
    · exact inv.clocked.after other old
  have counted : (s.doInsert ev).qSize + 1 = (s.doInsert ev).events.length := by
    rw [perm.length_eq, List.length_cons, ← inv.counted]
    rfl
  have apart : Distinct (ev :: s.events) :=
    List.pairwise_cons.mpr ⟨fun other member => (legal other member).symm, distinct⟩
  refine (resizeUp_meets ⟨sound.resized _, clocked.resized _, counted⟩
    (apart.perm perm.symm)).mono fun after _ same => ?_
  exact ⟨same.1, same.2.1.symm.trans perm, same.2.2⟩

theorem peekNext_meets (inv : s.Inv) (some : s.events ≠ []) :
    ∃ ev, s.peekNext = .ok ev ∧ ev ∈ s.events ∧ ∀ other ∈ s.events, ev.order ≤ other.order := by
  have counted : s.qSize ≠ 0 := by
    rw [inv.counted]
    exact fun none => some (List.eq_nil_of_length_eq_zero none)
  have found := scan_found inv.sound inv.clocked some (beyond_limit inv.clocked (2 ^ 32 - 1))
  unfold peekNext
  rw [if_neg counted]
  cases scanned :
      s.scan (toLex (2 ^ 64 - 1, 2 ^ 32 - 1)) s.nBuckets s.lastBucket s.bucketTop none with
  | today i bucketTop next =>
      rw [scanned] at found
      obtain ⟨inside, ⟨rest, front⟩, -, -, least⟩ := found
      exact ⟨next, rfl, mem_items.mpr ⟨i, inside, by rw [front]; simp⟩, least⟩
  | least least =>
      rw [scanned] at found
      cases least with
      | none => exact found.elim
      | some pair =>
          obtain ⟨inside, ⟨rest, front⟩, least⟩ := found
          exact ⟨pair.1, rfl, mem_items.mpr ⟨pair.2, inside, by rw [front]; simp⟩, least⟩

theorem removeNext_meets (inv : s.Inv) (distinct : Distinct s.events) (some : s.events ≠ []) :
    Holds (fun failure => failure = .widthPositive)
      (fun next => next.2.Inv ∧ s.events.Perm (next.1 :: next.2.events) ∧
        (∀ other ∈ next.2.events, next.1.order ≤ other.order) ∧
        next.2.lastPrio = next.1.key.ts) s.removeNext := by
  have counted : s.qSize ≠ 0 := by
    rw [inv.counted]
    exact fun none => some (List.eq_nil_of_length_eq_zero none)
  obtain ⟨next, middle, success, perm, least, sound, clocked, prio, same⟩ :=
    doRemoveNext_meets inv.sound inv.clocked some counted
  have size : middle.qSize - 1 = middle.events.length := by
    rw [same.qSize, inv.counted, perm.length_eq, List.length_cons, Nat.add_sub_cancel]
  have apart := (List.pairwise_cons.mp (distinct.perm perm)).2
  unfold removeNext
  simp only [if_neg counted, success, ok_bind]
  refine (resizeDown_meets ⟨sound.resized _, clocked.resized _, size⟩ apart).bind
    fun after _ kept => ?_
  have whole := perm.trans (kept.2.1.cons next)
  exact ⟨kept.1, whole, fun other member =>
    least other (whole.mem_iff.mpr (List.mem_cons_of_mem _ member)), kept.2.2.trans prio⟩

theorem Inv.less (inv : s.Inv) {i : Nat} {rest : List Event}
    (perm : s.events.Perm (ev :: items (replace s.buckets i rest) s.nBuckets))
    (fewer : List.Sublist rest (s.buckets i)) :
    ({ s with buckets := replace s.buckets i rest, qSize := s.qSize - 1 } :
      CalendarScheduler).Inv := by
  refine ⟨⟨inv.sound.some, inv.sound.few, inv.sound.wide, inv.sound.narrow, ?_⟩,
    ⟨inv.clocked.bucket, inv.clocked.top, inv.clocked.early, fun other old => ?_⟩, ?_⟩
  · exact inv.sound.placed.less fewer
  · exact inv.clocked.after other (perm.mem_iff.mpr (List.mem_cons_of_mem _ old))
  · show s.qSize - 1 = _
    rw [inv.counted, perm.length_eq, List.length_cons, Nat.add_sub_cancel]
    rfl

theorem remove_meets (inv : s.Inv) (distinct : Distinct s.events) (member : ev ∈ s.events) :
    Holds (fun failure => failure = .widthPositive)
      (fun after => after.Inv ∧ s.events.Perm (ev :: after.events) ∧ after.lastPrio = s.lastPrio)
      (s.remove ev) := by
  have counted : s.qSize ≠ 0 := by
    rw [inv.counted]
    exact fun none => List.not_mem_nil (List.eq_nil_of_length_eq_zero none ▸ member)
  obtain ⟨i, inside, here⟩ := mem_items.mp member
  have place : s.hash ev.key.ts = i := inv.sound.placed.placed i inside ev here
  have apart : Distinct (s.buckets i) :=
    distinct.sublist (List.sublist_flatten_of_mem (List.mem_map_of_mem (List.mem_range.mpr inside)))
  obtain ⟨rest, taken, fewer⟩ : ∃ rest,
      SortedQueue.take (fun other => other.key.uid = ev.key.uid) (s.buckets i) = some (ev, rest) ∧
        (s.buckets i).Perm (ev :: rest) := take_known apart here (by simp) (by simp)
  have perm := items_taken inside fewer
  obtain ⟨before, later, whole, left, -⟩ := SortedQueue.take_some taken
  have sublist : List.Sublist rest (s.buckets i) := by
    rw [whole, show rest = before ++ later from left]
    exact (List.Sublist.refl before).append (List.sublist_cons_self _ _)
  unfold remove
  simp only [if_neg counted, place, taken, if_true]
  refine (resizeDown_meets (inv.less perm sublist) ?_).mono fun after _ same =>
    ⟨same.1, perm.trans (same.2.1.cons ev), same.2.2⟩
  exact (List.pairwise_cons.mp (distinct.perm perm)).2

/-- A call does what the simulator expects or divides by a width of zero. -/
theorem call_meets (inv : s.Inv) (distinct : Distinct s.events) (call : SchedulerCall)
    (legal : call.Legal s.events) (time : InTime s.lastPrio call) :
    Holds (fun failure => failure = .widthPositive)
      (fun done => done.2.Inv ∧ call.Meets s.events done.1 done.2.events ∧
        done.2.lastPrio = passed s.lastPrio (call, done.1)) (calendarScheduler.call s call) := by
  cases call with
  | insert ev =>
      exact (insert_meets inv distinct legal time).bind fun after _ kept =>
        ⟨kept.1, ⟨rfl, kept.2.1⟩, kept.2.2⟩
  | peekNext =>
      obtain ⟨ev, success, member, least⟩ := peekNext_meets inv legal
      show Holds _ _ (s.peekNext >>= _)
      rw [success]
      exact ⟨inv, ⟨ev, rfl, rfl, member, least⟩, rfl⟩
  | removeNext =>
      exact (removeNext_meets inv distinct legal).bind fun next _ kept =>
        ⟨kept.1, ⟨next.1, rfl, kept.2.1, kept.2.2.1⟩, kept.2.2.2⟩
  | remove ev =>
      exact (remove_meets inv distinct legal).bind fun after _ kept =>
        ⟨kept.1, ⟨rfl, kept.2.1⟩, kept.2.2⟩

theorem empty_inv : calendarScheduler.empty.Inv := by
  have none : calendarScheduler.empty.events = [] := init_events 2 1 0 0
  refine ⟨init_sound (by decide) (by decide) (by decide) (by decide),
    ⟨rfl, rfl, by decide, fun ev member => ?_⟩, by rw [none]; rfl⟩
  rw [none] at member
  contradiction

theorem correct : calendarScheduler.Correct Inv fun s call =>
    InTime s.lastPrio call ∧ calendarScheduler.call s call ≠ .error .widthPositive := by
  refine ⟨⟨empty_inv, init_events 2 1 0 0⟩, fun s call inv distinct legal allowed => ?_⟩
  have holds := call_meets inv distinct call legal allowed.1
  cases answer : calendarScheduler.call s call with
  | error failure => exact absurd (by rw [answer, holds.of_error answer]) allowed.2
  | ok done => exact ⟨done.1, done.2, rfl, (holds.of_ok answer).1, (holds.of_ok answer).2.1⟩

def lastTime (labels : List (SchedulerCall × Option Event)) : Nat := labels.foldl passed 0

instance (time : Nat) : DecidablePred (InTime time)
  | .insert ev => inferInstanceAs (Decidable (time ≤ ev.key.ts ∧ ev.key.ts < 2 ^ 63))
  | .peekNext | .removeNext | .remove _ => inferInstanceAs (Decidable True)

def timely (time : Nat) : List (SchedulerCall × Option Event) → Bool
  | [] => true
  | label :: rest => decide (InTime time label.1) && timely (passed time label) rest

theorem timely_snoc (labels : List (SchedulerCall × Option Event))
    (label : SchedulerCall × Option Event) (time : Nat) :
    timely time (labels ++ [label]) = true ↔
      timely time labels = true ∧ InTime (labels.foldl passed time) label.1 := by
  induction labels generalizing time with
  | nil => simp [timely]
  | cons first rest ih =>
      rw [List.cons_append, timely, Bool.and_eq_true, ih, timely, Bool.and_eq_true, and_assoc]
      rfl

theorem run_inv {entries : List (CalendarScheduler × SchedulerCall × Option Event)}
    {finish : CalendarScheduler}
    (run : Run (Traced calendarScheduler.Step) calendarScheduler.empty entries finish)
    (inTime : timely 0 (entries.map Prod.snd) = true) :
    (finish.Inv ∧ Distinct finish.events ∧ finish.lastPrio = lastTime (entries.map Prod.snd)) ∧
      ∀ entry ∈ entries, InTime entry.1.lastPrio entry.2.1 ∧
        calendarScheduler.call entry.1 entry.2.1 ≠ .error .widthPositive := by
  revert inTime
  refine run.history (fun entries s => timely 0 (entries.map Prod.snd) = true →
    (s.Inv ∧ Distinct s.events ∧ s.lastPrio = lastTime (entries.map Prod.snd)) ∧
      ∀ entry ∈ entries, InTime entry.1.lastPrio entry.2.1 ∧
        calendarScheduler.call entry.1 entry.2.1 ≠ .error .widthPositive) ?_ ?_
  · intro _
    refine ⟨⟨empty_inv, ?_, rfl⟩, by simp⟩
    rw [show calendarScheduler.empty.events = [] from init_events 2 1 0 0]
    exact List.Pairwise.nil
  · intro labels middle entry finish _ holds move inTime
    obtain ⟨middle', label⟩ := entry
    obtain ⟨rfl, legal, success⟩ := move
    rw [List.map_append] at inTime ⊢
    obtain ⟨earlier, now⟩ := (timely_snoc _ label 0).mp inTime
    obtain ⟨⟨inv, distinct, time⟩, all⟩ := holds earlier
    change InTime (lastTime (labels.map Prod.snd)) label.1 at now
    rw [← time] at now
    obtain ⟨kept, meets, later⟩ :=
      (call_meets inv distinct label.1 legal now).of_ok success
    refine ⟨⟨kept, meets.distinct legal distinct, ?_⟩, ?_⟩
    · rw [later, time]
      unfold lastTime
      rw [List.foldl_append]
      rfl
    · simp only [List.forall_mem_append, List.forall_mem_singleton]
      exact ⟨all, now, by rw [success]; exact fun other => by cases other⟩

/-- As long as no event is inserted before the last one that was removed, the calendar answers as
the list does, and the only assertion that it can break is a division by a width of zero. -/
theorem calendar_answers_as_list {labels : List (SchedulerCall × Option Event)}
    {finish : CalendarScheduler}
    (run : Run calendarScheduler.Step calendarScheduler.empty labels finish)
    (inTime : timely 0 labels = true) :
    (∃ events, finish.events.Perm events ∧ Run listScheduler.Step [] labels events) ∧
      ∀ call, call.Legal finish.events → InTime (lastTime labels) call →
        ∀ failure, calendarScheduler.call finish call = .error failure →
          failure = .widthPositive := by
  obtain ⟨entries, traced, same⟩ := run.traced
  subst same
  obtain ⟨⟨inv, distinct, time⟩, allowed⟩ := run_inv traced inTime
  obtain ⟨-, events, ⟨-, perm⟩, answers⟩ := correct.agrees listScheduler_correct traced allowed
  refine ⟨⟨events, perm, answers⟩, fun call legal now failure failed => ?_⟩
  rw [← time] at now
  exact (call_meets inv distinct call legal now).of_error failed

/-- Five events make four buckets, and an event that leaves before its time makes two again. -/
def doubled : List (SchedulerCall × Option Event) :=
  [(.insert ⟨4, 9, 4, 0⟩, none), (.insert ⟨5, 2, 5, 0⟩, none), (.insert ⟨6, 2, 6, 0⟩, none),
    (.insert ⟨7, 70, 7, 0⟩, none), (.insert ⟨8, 3, 8, 0⟩, none), (.removeNext, some ⟨5, 2, 5, 0⟩),
    (.peekNext, some ⟨6, 2, 6, 0⟩), (.remove ⟨6, 2, 6, 0⟩, none), (.insert ⟨9, 2, 9, 0⟩, none)]

theorem doubled_answers : ∃ events, Run listScheduler.Step [] doubled events :=
  have run := Run.executed calendarScheduler.step_next doubled
    (show executes calendarScheduler.takes calendarScheduler.next calendarScheduler.empty doubled =
      true by decide +kernel)
  (calendar_answers_as_list run (by decide)).1.imp fun _ answers => answers.2

/-- Four events that are `2 ^ 32` apart, and a fifth one that gives a width of zero. -/
example : calendarScheduler.call
    (((List.range 4).map fun k => (SchedulerCall.insert ⟨4 + k, k * 2 ^ 32, 4 + k, 0⟩, none)).foldl
      calendarScheduler.next calendarScheduler.empty) (.insert ⟨8, 4 * 2 ^ 32, 8, 0⟩) matches
    .error .widthPositive := by
  decide +kernel

end CalendarScheduler

end Floodgate
