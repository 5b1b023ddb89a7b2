import Mathlib.Data.List.Destutter
import Pitwall.Proofs.Engine.Agreement
import Pitwall.Proofs.Engine.Splits

/-!
# Announcing — changes of track and weather

Track and weather are announced with snapshots only, and a snapshot is compared with the session
that the latest snapshot before it described: nothing else that comes in touches that session, but
for a reset, after which there is none (**`Engine.described?_react`**). So what is told in a run are
the sessions that its snapshots describe, without those that repeat the one before
(**`Engine.Tells.run`**). For track with layout, and for the weather, that is
**`Engine.announces_changes`**.
-/

namespace Pitwall

/-! ## Leaving out repeats -/

section Repeats

variable {α : Type} [DecidableEq α]

/-- The values that differ from the one before, the first one from the latest one of earlier, if
there is one. -/
def newAfter (latest : Option α) (values : List α) : List α :=
  ((latest.toList ++ values).destutter (· ≠ ·)).drop latest.toList.length

theorem newAfter_nil (latest : Option α) : newAfter latest [] = [] := by
  cases latest <;> rfl

/-- What is kept begins with the first value. -/
theorem destutter'_eq_cons (x : α) (values : List α) :
    values.destutter' (· ≠ ·) x = x :: newAfter (some x) values := by
  show _ = x :: (values.destutter' (· ≠ ·) x).drop 1
  induction values generalizing x with
  | nil => rfl
  | cons y values ih =>
      by_cases h : x = y
      · subst h
        rw [List.destutter'_cons_neg _ (fun h => h rfl)]
        exact ih x
      · rw [List.destutter'_cons_pos _ h]
        rfl

/-- The first value is kept unless it repeats the latest one, and is the latest one from then on. -/
theorem newAfter_cons (latest : Option α) (x : α) (values : List α) :
    newAfter latest (x :: values) =
      (if latest = some x then [] else [x]) ++ newAfter (some x) values := by
  cases latest with
  | none => exact destutter'_eq_cons x values
  | some y =>
      show ((x :: values).destutter' (· ≠ ·) y).drop 1 = _
      by_cases h : y = x
      · subst h
        rw [List.destutter'_cons_neg _ (fun h => h rfl), if_pos rfl]
        rfl
      · rw [List.destutter'_cons_pos _ h, if_neg fun heq => h (Option.some.inj heq),
          destutter'_eq_cons]
        rfl

theorem newAfter_singleton (latest : Option α) (x : α) :
    newAfter latest [x] = if latest = some x then [] else [x] := by
  rw [newAfter_cons, newAfter_nil, List.append_nil]

/-- The same for a list of stretches: only the first one goes on from earlier, the others start
anew. -/
def newAcross (latest : Option α) : List (List α) → List α
  | [] => []
  | stretch :: stretches => newAfter latest stretch ++ stretches.flatMap (newAfter none)

theorem newAcross_none (stretches : List (List α)) :
    newAcross none stretches = stretches.flatMap (fun stretch => stretch.destutter (· ≠ ·)) := by
  cases stretches <;> rfl

/-- What comes first is compared with the latest one, and is the latest one from then on. -/
theorem newAcross_modifyHead (latest next : Option α) {stretches : List (List α)}
    (h : stretches ≠ []) :
    newAcross latest (stretches.modifyHead (next.toList ++ ·)) =
      newAfter latest next.toList ++ newAcross (next.or latest) stretches := by
  obtain ⟨stretch, stretches, rfl⟩ := List.exists_cons_of_ne_nil h
  cases next with
  | none =>
      rw [Option.toList_none, newAfter_nil]
      rfl
  | some x =>
      show newAfter latest (x :: stretch) ++ _ =
        newAfter latest [x] ++ (newAfter (some x) stretch ++ _)
      rw [newAfter_cons, newAfter_singleton, List.append_assoc]

end Repeats

/-! ## What snapshots describe -/

namespace Input

/-- The session that the input describes, if it is a snapshot. -/
def described? : Input → Option SessionInfo
  | .event (.snapshot s) _ => some s.session
  | _ => none

theorem exists_of_isSnapshot {i : Input} (h : i.isSnapshot = true) :
    ∃ s now, i = .event (.snapshot s) now := by
  cases i with
  | event ev now =>
      cases ev with
      | snapshot s => exact ⟨s, now, rfl⟩
      | _ => cases h
  | tick t now => cases h
  | reset => cases h

theorem described?_eq_none {i : Input} (h : i.isSnapshot = false) : i.described? = none := by
  cases i with
  | event ev now =>
      cases ev with
      | snapshot s => cases h
      | _ => rfl
  | tick t now => rfl
  | reset => rfl

end Input

/-- The sessions that the snapshots of a run describe, one list for every stretch between resets. -/
def describedIn (inputs : List Input) : List (List SessionInfo) :=
  (inputs.splitOnP Input.isReset).map (·.filterMap Input.described?)

theorem describedIn_ne_nil (inputs : List Input) : describedIn inputs ≠ [] := by
  rw [describedIn, ne_eq, List.map_eq_nil_iff]
  exact List.splitOnP_ne_nil _ _

theorem describedIn_cons (i : Input) (inputs : List Input) :
    describedIn (i :: inputs) =
      if i.isReset then [] :: describedIn inputs
      else (describedIn inputs).modifyHead (i.described?.toList ++ ·) := by
  rw [describedIn, describedIn, List.splitOnP_cons_eq_if_modifyHead]
  split
  · rfl
  · obtain ⟨stretch, stretches, hsplit⟩ :=
      List.exists_cons_of_ne_nil (List.splitOnP_ne_nil Input.isReset inputs)
    rw [hsplit]
    cases h : i.described? <;> simp [h]

namespace Notification

/-- The announcements that come with snapshots. -/
def comesWithSnapshot : Notification → Bool
  | .snapshotApplied => true
  | .trackChanged .. => true
  | .weatherChanged .. => true
  | _ => false

/-- The track that is announced, with its layout. -/
def track? : Notification → Option (String × String)
  | .trackChanged track layout => some (track, layout)
  | _ => none

/-- The weather that is announced. -/
def weather? : Notification → Option String
  | .weatherChanged weather => some weather
  | _ => none

end Notification

namespace Board

variable {b c : Board} {i : Input}

/-- The session that the latest snapshot described, if there has been one. -/
def described? (b : Board) : Option SessionInfo := if b.initialised then some b.session else none

theorem session_ofSnapshot (s : Snapshot) : (ofSnapshot s).session = s.session := by
  rw [ofSnapshot_eq]

theorem described?_ofSnapshot (s : Snapshot) (earlier : Table Guid Marker) :
    ((ofSnapshot s).takeOverMarkers earlier).described? = some s.session := by
  show ((ofSnapshot s).takeOverMarkers earlier).bare.described? = _
  rw [bare_takeOverMarkers, ofSnapshot_eq]
  rfl

/-- A step touches the session only with a snapshot or a reset. -/
theorem Step.described? (hstep : b.Step i c) (hi : i.isSnapshot = false)
    (hreset : i.isReset = false) : c.described? = b.described? := by
  have hsame : c.initialised = b.initialised ∧ c.session = b.session := by
    cases hstep with
    | same => exact ⟨rfl, rfl⟩
    | resync s now => cases hi
    | connect car now =>
        rw [connect_eq, sync_eq]
        exact ⟨rfl, rfl⟩
    | purge now hd => exact ⟨rfl, rfl⟩
    | leave now hd => exact ⟨rfl, rfl⟩
    | put ev now hcar hd => exact ⟨rfl, rfl⟩
    | lap now hd =>
        rw [foldl_raiseLaps_eq]
        exact ⟨rfl, rfl⟩
    | rank now => exact ⟨rfl, rfl⟩
    | reset => cases hreset
  rw [Board.described?, Board.described?, hsame.1, hsame.2]

/-- A track is told unless it is that of the session before, with the same layout. -/
theorem tellsTrack_ofSnapshot (b : Board) (s : Snapshot) :
    b.tellsTrack (ofSnapshot s) =
      decide (b.described?.map (fun s => (s.track, s.layout)) ≠
        some (s.session.track, s.session.layout)) := by
  rw [tellsTrack, session_ofSnapshot, described?]
  cases b.initialised <;> simp [bne, Bool.beq_eq_decide_eq, Decidable.imp_iff_not_or]

/-- Weather is told unless it is that of the session before. -/
theorem tellsWeather_ofSnapshot (b : Board) (s : Snapshot) :
    b.tellsWeather (ofSnapshot s) =
      decide (b.described?.map SessionInfo.weather ≠ some s.session.weather) := by
  rw [tellsWeather, session_ofSnapshot, described?]
  cases b.initialised <;> simp [bne, Bool.beq_eq_decide_eq]

end Board

/-! ## What is announced with an input -/

namespace Engine

variable {α : Type} {e : Engine} {i : Input}

/-- **THE SESSION IS THAT OF THE LATEST SNAPSHOT**, whatever else comes in before a reset. -/
theorem described?_react (e : Engine) (i : Input) :
    (e.react i).1.board.described? =
      if i.isReset then none else i.described?.or e.board.described? := by
  by_cases hi : i.isSnapshot = true
  · obtain ⟨s, now, rfl⟩ := Input.exists_of_isSnapshot hi
    exact Board.described?_ofSnapshot s e.board.markers
  · have hnone := Input.described?_eq_none (Bool.eq_false_iff.2 hi)
    split
    · next hreset =>
      obtain rfl := Input.eq_reset hreset
      rfl
    · next hreset =>
      rw [hnone, Option.none_or]
      exact (e.step_react i).described? (Bool.eq_false_iff.2 hi) (Bool.eq_false_iff.2 hreset)

theorem alone_withCar {car : CarId} {f : Guid → Driver → Engine × Outcome}
    (hf : ∀ g d, (f g d).2.notifications.any Notification.comesWithSnapshot = false) :
    (e.withCar car f).2.notifications.any Notification.comesWithSnapshot = false :=
  withCar_induction (P := fun p => p.2.notifications.any Notification.comesWithSnapshot = false) rfl
    fun g d _ => hf g d

/-- Only snapshots announce what comes with snapshots. -/
theorem alone_react (e : Engine) (hi : i.isSnapshot = false) :
    (e.react i).2.any Notification.comesWithSnapshot = false := by
  cases i with
  | event ev now =>
      show (merge _ now ev).2.notifications.any Notification.comesWithSnapshot = false
      cases ev with
      | snapshot s => cases hi
      | connectionClosed car =>
          exact disconnect_induction
            (P := fun p => p.2.notifications.any Notification.comesWithSnapshot = false) rfl
            (fun _ _ => rfl) fun _ _ => rfl
      | clientLoaded car => exact alone_withCar fun _ _ => rfl
      | carUpdate t => exact alone_withCar fun _ _ => rfl
      | collision c => exact alone_withCar fun _ _ => rfl
      | lapCompleted l => exact alone_withCar fun _ _ => rfl
      | splitCompleted s => exact alone_withCar fun _ _ => rfl
      | tyresChanged car => exact alone_withCar fun _ _ => rfl
      | _ => rfl
  | tick t now =>
      show (e.tick t now).2.any Notification.comesWithSnapshot = false
      simp only [tick]
      split
      · rfl
      · cases t with
        | standings =>
            show List.any (_ ++ _) _ = false
            rw [List.any_append]
            split <;> split <;> rfl
        | _ => rfl
  | reset => rfl

/-- Other inputs tell nothing of what comes with snapshots. -/
theorem filterMap_react {tell : Notification → Option α}
    (htell : ∀ n, n.comesWithSnapshot = false → tell n = none) (e : Engine)
    (hi : i.isSnapshot = false) : (e.react i).2.filterMap tell = [] := by
  rw [List.filterMap_eq_nil_iff]
  intro n hn
  refine htell n (Bool.eq_false_iff.2 fun hcomes => ?_)
  exact List.any_eq_false.1 (alone_react e hi) n hn hcomes

/-- **A SNAPSHOT TELLS WHAT DIFFERS** from the session before: the track with its layout, and the
weather. -/
theorem notifications_resync_eq (e : Engine) (s : Snapshot) (now : Instant) :
    (e.resync s now).2.notifications =
      (if e.board.described?.map (fun s => (s.track, s.layout)) =
          some (s.session.track, s.session.layout) then []
        else [.trackChanged s.session.track s.session.layout]) ++
      (if e.board.described?.map SessionInfo.weather = some s.session.weather then []
        else [.weatherChanged s.session.weather]) ++ [.snapshotApplied] := by
  rw [notifications_resync, Board.tellsTrack_ofSnapshot, Board.tellsWeather_ofSnapshot,
    Board.session_ofSnapshot]
  simp only [decide_eq_true_eq, ne_eq, ite_not]

/-- A part of the session is told with snapshots alone, and with these if it is not that of the
session before. -/
structure Tells [DecidableEq α] (tell : Notification → Option α) (part : SessionInfo → α) :
    Prop where
  comesWithSnapshot : ∀ n, n.comesWithSnapshot = false → tell n = none
  snapshot : ∀ (e : Engine) (s : Snapshot) (now : Instant),
    (e.resync s now).2.notifications.filterMap tell =
      if e.board.described?.map part = some (part s.session) then [] else [part s.session]

theorem tells_track : Tells Notification.track? (fun s => (s.track, s.layout)) where
  comesWithSnapshot n hn := by cases n <;> first | rfl | cases hn
  snapshot e s now := by
    rw [notifications_resync_eq]
    split <;> split <;> rfl

theorem tells_weather : Tells Notification.weather? SessionInfo.weather where
  comesWithSnapshot n hn := by cases n <;> first | rfl | cases hn
  snapshot e s now := by
    rw [notifications_resync_eq]
    split <;> split <;> rfl

variable [DecidableEq α] {tell : Notification → Option α} {part : SessionInfo → α}

/-- What is told with an input is what differs from the session before. -/
theorem Tells.react (h : Tells tell part) (e : Engine) (i : Input) :
    (e.react i).2.filterMap tell =
      newAfter (e.board.described?.map part) (i.described?.map part).toList := by
  by_cases hi : i.isSnapshot = true
  · obtain ⟨s, now, rfl⟩ := Input.exists_of_isSnapshot hi
    exact (h.snapshot _ s now).trans (newAfter_singleton _ _).symm
  · rw [filterMap_react h.comesWithSnapshot e (Bool.eq_false_iff.2 hi),
      Input.described?_eq_none (Bool.eq_false_iff.2 hi), Option.map_none, Option.toList_none,
      newAfter_nil]

/-- **WHAT IS TOLD IN A RUN ARE THE CHANGES** of what its snapshots describe. -/
theorem Tells.run (h : Tells tell part) (e : Engine) (inputs : List Input) :
    (e.announcements inputs).flatten.filterMap tell =
      newAcross (e.board.described?.map part) ((describedIn inputs).map (List.map part)) := by
  induction inputs generalizing e with
  | nil =>
      show [] = newAfter (e.board.described?.map part) [] ++ []
      rw [newAfter_nil]
      rfl
  | cons i inputs ih =>
      rw [announcements, List.flatten_cons, List.filterMap_append, ih, h.react, described?_react,
        describedIn_cons]
      split
      · next hreset =>
        -- nothing is told with a reset, and a stretch ends that describes nothing more
        obtain rfl := Input.eq_reset hreset
        show newAfter _ [] ++ newAcross none _ = newAfter _ [] ++ _
        rw [newAcross_none]
        rfl
      · have hmap :
            ((describedIn inputs).modifyHead (i.described?.toList ++ ·)).map (List.map part) =
              ((describedIn inputs).map (List.map part)).modifyHead
                ((i.described?.map part).toList ++ ·) := by
          cases describedIn inputs <;> cases i.described? <;> rfl
        have hne : (describedIn inputs).map (List.map part) ≠ [] :=
          mt List.map_eq_nil_iff.1 (describedIn_ne_nil inputs)
        rw [hmap, newAcross_modifyHead _ _ hne, Option.map_or]

/-! ## Snapshots in a run -/

/-- What holds of every input with what is announced with it holds throughout a run. -/
theorem forall_transcript {P : Input × List Notification → Prop}
    (hP : ∀ e i, P (i, (Engine.react e i).2)) (e : Engine) (inputs : List Input) :
    ∀ p ∈ e.transcript inputs, P p := by
  induction inputs generalizing e with
  | nil => exact List.forall_mem_nil _
  | cons i inputs ih => exact List.forall_mem_cons.2 ⟨hP e i, ih _⟩

/-- Each snapshot is announced once and at last, and nothing else is. -/
theorem snapshotApplied_react (e : Engine) (i : Input) :
    (e.react i).2.count .snapshotApplied = (if i.isSnapshot then 1 else 0) ∧
      (i.isSnapshot = true → (e.react i).2.getLast? = some .snapshotApplied) := by
  by_cases hi : i.isSnapshot = true
  · obtain ⟨s, now, rfl⟩ := Input.exists_of_isSnapshot hi
    show (resync _ s now).2.notifications.count _ = 1 ∧
      (_ → (resync _ s now).2.notifications.getLast? = _)
    rw [notifications_resync_eq]
    constructor
    · split <;> split <;> rfl
    · intro _
      exact List.getLast?_concat
  · rw [if_neg hi]
    constructor
    · refine List.count_eq_zero.2 fun hmem => ?_
      have halone := List.any_eq_false.1 (alone_react e (Bool.eq_false_iff.2 hi)) _ hmem
      exact halone rfl
    · exact fun h => absurd h hi

/-- **TRACK AND WEATHER ARE ANNOUNCED WHEN THEY CHANGE**: in every run from the start, the tracks
that are announced, each with its layout, are those of the snapshots that come in, without the ones
that repeat the one before, and so is the weather; after a reset both start anew. Every snapshot is
announced once, after all else that it announces, and nothing but a snapshot is announced so. -/
theorem announces_changes (inputs : List Input) :
    let told := (initial.announcements inputs).flatten
    told.filterMap Notification.track? =
        (describedIn inputs).flatMap
          (fun stretch => (stretch.map (fun s => (s.track, s.layout))).destutter (· ≠ ·)) ∧
      told.filterMap Notification.weather? =
        (describedIn inputs).flatMap
          (fun stretch => (stretch.map SessionInfo.weather).destutter (· ≠ ·)) ∧
      ∀ p ∈ initial.transcript inputs,
        p.2.count .snapshotApplied = (if p.1.isSnapshot then 1 else 0) ∧
          (p.1.isSnapshot = true → p.2.getLast? = some .snapshotApplied) := by
  intro told
  refine ⟨?track, ?weather, ?applied⟩
  case track =>
    rw [Tells.run tells_track]
    show newAcross none _ = _
    rw [newAcross_none, List.flatMap_map]
  case weather =>
    rw [Tells.run tells_weather]
    show newAcross none _ = _
    rw [newAcross_none, List.flatMap_map]
  case applied => exact forall_transcript snapshotApplied_react initial inputs

/-- The first snapshot announces a track that is as empty as that of the start; another session that
comes between two snapshots does not count, and after a reset all is new. -/
example :
    let snapshot : Input := .event (.snapshot {}) .zero
    let other : Input := .event (.newSession { track := "spa" }) .zero
    (initial.announcements [snapshot, other, snapshot, .reset, snapshot]).map
        (·.filterMap Notification.track?) = [[("", "")], [], [], [], [("", "")]] := by
  decide +kernel

end Engine

end Pitwall
