import MyDiffbot.System.Orientation

/-!
# The diagnostic of the IMU

`read` publishes a status at most once a second, and calls the data stale if the last change of the
frame counter is more than half a second old. The counter runs for the lifetime of the driver, while
every activation resets the number it is compared with to zero. The frames of an earlier session then
count as a change at the first `read` of the next one (`not_provesLive`).
-/

namespace MyDiffbot.System

open Protocol Numeric Transport Incremental

/-! ## Counting frames -/

theorem Continues.imuCount {c next : Component} {effects : List Effect}
    (h : Continues c effects next) :
    next.hardware.kestrel.feedback.imu.count =
      c.hardware.kestrel.feedback.imu.count + (imuQuats effects).length := by
  rw [h.feedback]
  exact Feedback.foldl_imuCount _ _

/-! ## One read -/

/-- The counter has changed less than half a second after the last diagnostic, or before it. -/
def Recent (change lastDiagPub : Time) : Prop := seconds (change - lastDiagPub) < 0.5

instance (change lastDiagPub : Time) : Decidable (Recent change lastDiagPub) :=
  inferInstanceAs (Decidable (_ < _))

theorem stale_of_due {due stale change lastDiagPub : Time} (hdue : 1 ≤ seconds (due - lastDiagPub))
    (hrecent : Recent change lastDiagPub) (hclock : due ≤ stale) :
    0.5 < seconds (stale - change) := by
  unfold Recent seconds at *
  have hclock' : (due : ℚ) ≤ stale := by exact_mod_cast hclock
  push_cast at *
  linarith

def status? : Effect → Option DiagnosticStatus
  | .diagnostic status => some status
  | _ => none

/-- The diagnostics among some effects. -/
def published (effects : List Effect) : List DiagnosticStatus := effects.filterMap status?

namespace MyDiffbotSystemHardware

variable (h : MyDiffbotSystemHardware)

/-- A status is due. -/
def publishes (input : ReadInput) : Bool := decide (1 ≤ seconds (input.diagDue - h.lastDiagPub))

/-- When the counter has changed last, given the time at which this is looked at. -/
def changeAt (now : Time) : Time :=
  if h.kestrel.feedback.imu.count ≠ h.lastImuCount then now else h.lastImuCountChange

/-- The same after the parsing of a `read`. -/
def imuCountChange (input : ReadInput) : Time :=
  changeAt { h with kestrel := (h.kestrel.read input.poll).1 } input.imuChange

/-- The status of a `read`. -/
def statusOf (input : ReadInput) : DiagnosticStatus :=
  imuStatus (h.kestrel.read input.poll).1.feedback.imuHealthy
    (decide (0.5 < seconds (input.imuStale - h.imuCountChange input)))
    (h.kestrel.read input.poll).1.feedback.imu

theorem level_imuStatus_of_stale (healthy : Bool) (imu : ImuSnapshot) :
    (imuStatus healthy true imu).level = .error := by
  cases healthy <;> rfl

theorem published_read (poll : Poll) (k : Kestrel) : published (k.read poll).2 = [] := by
  rw [k.read_eq]
  refine List.filterMap_eq_nil_iff.mpr fun effect heffect ↦ ?_
  obtain ⟨message, _, rfl⟩ := List.mem_map.mp heffect
  rfl

theorem readImu_status (input : ReadInput) (publishDiag : Bool) :
    (h.readImu input publishDiag).1.lastImuCountChange = h.changeAt input.imuChange ∧
      (h.readImu input publishDiag).1.lastDiagPub = h.lastDiagPub ∧
      (h.readImu input publishDiag).2 =
        if publishDiag then
          some (imuStatus h.kestrel.feedback.imuHealthy
            (decide (0.5 < seconds (input.imuStale - h.changeAt input.imuChange)))
            h.kestrel.feedback.imu)
        else none := by
  unfold readImu changeAt
  by_cases hcount : h.kestrel.feedback.imu.count = h.lastImuCount <;>
    cases publishDiag <;> simp [hcount]

theorem readWheels_trackers (input : ReadInput) :
    (h.readWheels input).lastImuCountChange = h.lastImuCountChange ∧
      (h.readWheels input).lastDiagPub = h.lastDiagPub := by
  obtain ⟨_, _, _, _, _, _, _, _, _, _, _, _, hwrites⟩ := h.readWheels_writes input
  rw [hwrites]
  exact ⟨rfl, rfl⟩

/-- What a `read` on an open port does to the trackers of the diagnostic, and what it publishes. -/
theorem read_status (input : ReadInput) (hopen : h.kestrel.isOpen = true) :
    (h.read input).2.1.lastImuCountChange = h.imuCountChange input ∧
      (h.read input).2.1.lastDiagPub =
        (if h.publishes input then input.diagPub else h.lastDiagPub) ∧
      published (h.read input).2.2 = if h.publishes input then [h.statusOf input] else [] := by
  have hparsed := published_read input.poll h.kestrel
  unfold read
  simp only [hopen, Bool.not_true, Bool.false_eq_true, if_false]
  refine ⟨?_, ?_, ?_⟩
  · rw [(readWheels_trackers _ input).1, (readImu_status _ input _).1]
    rfl
  · rw [(readWheels_trackers _ input).2, (readImu_status _ input _).2.1]
    rfl
  · rw [(readImu_status _ input _).2.2, published, List.filterMap_append]
    change published (h.kestrel.read input.poll).2 ++ _ = _
    rw [hparsed]
    unfold publishes
    split <;> rfl

/-- A status that is published long after the last change is an error. -/
theorem level_of_published (input : ReadInput) (hopen : h.kestrel.isOpen = true)
    (hrecent : Recent (h.imuCountChange input) h.lastDiagPub)
    (hclock : input.diagDue ≤ input.imuStale) :
    ∀ status ∈ published (h.read input).2.2, status.level = .error := by
  rw [(h.read_status input hopen).2.2]
  split_ifs with hdue
  · intro status hstatus
    obtain rfl := List.mem_singleton.mp hstatus
    have hstale := stale_of_due (of_decide_eq_true hdue) hrecent hclock
    rw [statusOf, decide_eq_true hstale]
    exact level_imuStatus_of_stale _ _
  · exact fun _ hmem ↦ absurd hmem List.not_mem_nil

/-- An activation that fails leaves the trackers alone. -/
theorem onActivate_trackers (input : ActivateInput) (hfailed : (h.onActivate input).1 ≠ .success) :
    (h.onActivate input).2.1.lastImuCountChange = h.lastImuCountChange ∧
      (h.onActivate input).2.1.lastDiagPub = h.lastDiagPub := by
  unfold onActivate at hfailed ⊢
  dsimp only at hfailed ⊢
  split_ifs at hfailed ⊢
  · exact ⟨rfl, rfl⟩
  · exact ⟨rfl, rfl⟩
  · exact absurd rfl hfailed

end MyDiffbotSystemHardware

/-! ## Runs -/

/-- What is seen of the IMU: an activation begins, a frame is parsed, a status is published. -/
inductive ImuMark
  | began
  | frame
  | published (level : DiagnosticLevel)
  deriving DecidableEq

/-- The marks of one step. Frames are parsed before the status is made. -/
def imuMarks (event : Event) (effects : List Effect) : List ImuMark :=
  (match event with
    | .activate _ => [.began]
    | _ => []) ++
  (imuQuats effects).map (fun _ ↦ .frame) ++
  match event with
  | .read _ => (published effects).map fun status ↦ .published status.level
  | _ => []

/-- A component, with the frame counter at the beginning of the latest activation. -/
structure Watched where
  component : Component
  countBegun : ℕ

/-- The component, of which only the marks of the IMU are seen. -/
def diagnosticsWatch : Machine Watched Event ImuMark where
  step w event := (component.step w.component event).map fun result ↦
    (⟨result.1, match event with
      | .activate _ => w.component.hardware.kestrel.feedback.imu.count
      | _ => w.countBegun⟩, imuMarks event result.2)

/-- An IMU frame was parsed since the latest activation began. -/
def Live (trace : List ImuMark) : Prop :=
  ∃ before since, trace = before ++ .began :: since ∧ .began ∉ since ∧ .frame ∈ since

/-- Whenever a status that is not an error is published, the data is live. -/
def ProvesLive (trace : List ImuMark) : Prop :=
  ∀ front level back, trace = front ++ .published level :: back → level ≠ .error → Live front

/-- A `read` finds the counter of frames changed although none was parsed since the latest
activation began. -/
def CountsOld (w : Watched) (input : MyDiffbotSystemHardware.ReadInput) : Prop :=
  w.component.hardware.kestrel.isOpen = true ∧
    imuQuats (w.component.hardware.read input).2.2 = [] ∧
    w.component.hardware.kestrel.feedback.imu.count = w.countBegun ∧
    w.component.hardware.lastImuCount ≠ w.countBegun

instance (w : Watched) (input : MyDiffbotSystemHardware.ReadInput) : Decidable (CountsOld w input) :=
  inferInstanceAs (Decidable (_ ∧ _ ∧ _ ∧ _))

/-- The clock does not run backwards in a `read`, old frames are counted within half a second after
the last diagnostic, which an activation resets, and an activation fails only when the trackers it
leaves alone are as old. -/
def CountsFresh (w : Watched) : Event → Prop
  | .read input =>
    (input.diagDue ≤ input.diagPub ∧ input.diagDue ≤ input.imuStale) ∧
      (CountsOld w input → Recent input.imuChange w.component.hardware.lastDiagPub)
  | .activate input =>
    (w.component.hardware.onActivate input).1 = .success ∨
      Recent w.component.hardware.lastImuCountChange w.component.hardware.lastDiagPub
  | _ => True

instance (w : Watched) (event : Event) : Decidable (CountsFresh w event) :=
  match event with
  | .read _ => inferInstanceAs (Decidable ((_ ∧ _) ∧ (_ → _)))
  | .activate _ => inferInstanceAs (Decidable (_ ∨ _))
  | .setJointCommand _ _ | .setGpioCommand _ _ | .configure | .cleanup | .deactivate _ | .write _ =>
    inferInstanceAs (Decidable True)

/-! ## Traces of marks -/

/-- The frames since the latest activation began. -/
def framesSince (trace : List ImuMark) : ℕ :=
  trace.foldl (fun count mark ↦ match mark with
    | .began => 0
    | .frame => count + 1
    | .published _ => count) 0

theorem framesSince_append_singleton (trace : List ImuMark) (mark : ImuMark) :
    framesSince (trace ++ [mark]) = match mark with
      | .began => 0
      | .frame => framesSince trace + 1
      | .published _ => framesSince trace := by
  unfold framesSince
  rw [List.foldl_append]
  rfl

theorem framesSince_append_frames (trace : List ImuMark) (frames : List Quat) :
    framesSince (trace ++ frames.map fun _ ↦ .frame) = framesSince trace + frames.length := by
  induction frames generalizing trace with
  | nil => simp
  | cons frame frames ih =>
    have hframe := framesSince_append_singleton trace .frame
    rw [List.map_cons, ← List.singleton_append, ← List.append_assoc, ih, hframe, List.length_cons]
    exact Nat.succ_add_eq_add_succ _ _

theorem framesSince_append_published (trace : List ImuMark) (levels : List DiagnosticLevel) :
    framesSince (trace ++ levels.map .published) = framesSince trace := by
  induction levels generalizing trace with
  | nil => simp
  | cons level levels ih =>
    rw [List.map_cons, ← List.singleton_append, ← List.append_assoc, ih,
      framesSince_append_singleton]

theorem framesSince_eq_count (before : List ImuMark) {since : List ImuMark}
    (hsince : .began ∉ since) : framesSince (before ++ .began :: since) = since.count .frame := by
  induction since using List.reverseRecOn with
  | nil => exact framesSince_append_singleton before .began
  | append_singleton since mark ih =>
    obtain ⟨hrest, hmark⟩ := not_or.mp (List.mem_append.not.mp hsince)
    have happend := framesSince_append_singleton (before ++ .began :: since) mark
    rw [ih hrest, List.append_assoc] at happend
    refine happend.trans ?_
    cases mark with
    | began => exact absurd (List.mem_singleton_self _) hmark
    | frame | published level => simp

theorem exists_latest_began {trace : List ImuMark} (hbegan : .began ∈ trace) :
    ∃ before since, trace = before ++ .began :: since ∧ .began ∉ since := by
  induction trace using List.reverseRecOn with
  | nil => exact absurd hbegan List.not_mem_nil
  | append_singleton trace mark ih =>
    by_cases hmark : mark = .began
    · subst hmark
      exact ⟨trace, [], rfl, List.not_mem_nil⟩
    · obtain ⟨before, since, rfl, hsince⟩ := ih (by simpa [Ne.symm hmark] using hbegan)
      exact ⟨before, since ++ [mark], by simp, by simp [hsince, Ne.symm hmark]⟩

/-- The data is live if there are frames since the latest activation began. -/
theorem live_iff {trace : List ImuMark} :
    Live trace ↔ .began ∈ trace ∧ framesSince trace ≠ 0 := by
  constructor
  · rintro ⟨before, since, rfl, hsince, hframe⟩
    rw [framesSince_eq_count before hsince]
    exact ⟨by simp, (List.count_pos_iff.mpr hframe).ne'⟩
  · rintro ⟨hbegan, hframes⟩
    obtain ⟨before, since, rfl, hsince⟩ := exists_latest_began hbegan
    rw [framesSince_eq_count before hsince] at hframes
    exact ⟨before, since, rfl, hsince, List.count_pos_iff.mp (Nat.pos_of_ne_zero hframes)⟩

/-! ## The invariant -/

theorem Recent.of_due {due diagPub change lastDiagPub : Time}
    (hrecent : Recent change lastDiagPub) (hdue : 1 ≤ seconds (due - lastDiagPub))
    (hclock : due ≤ diagPub) : Recent change diagPub := by
  unfold Recent seconds at *
  have hclock' : (due : ℚ) ≤ diagPub := by exact_mod_cast hclock
  push_cast at *
  linarith

theorem recent_self (now : Time) : Recent now now := by
  unfold Recent seconds
  norm_num

theorem ProvesLive.append {trace more : List ImuMark} (h : ProvesLive trace)
    (hmore : ∀ front level back, more = front ++ .published level :: back → level ≠ .error →
      Live (trace ++ front)) : ProvesLive (trace ++ more) := by
  have happend := @forall_split_append _
    (fun front mark ↦ ∀ level, mark = .published level → level ≠ .error → Live front) trace more
    (fun front _ back hsplit level hmark hlevel ↦ h front level back (hmark ▸ hsplit) hlevel)
    (fun front _ back hsplit level hmark hlevel ↦ hmore front level back (hmark ▸ hsplit) hlevel)
  exact fun front level back hsplit hlevel ↦ happend front _ back hsplit level rfl hlevel

/-- Marks that publish nothing. -/
theorem ProvesLive.append_quiet {trace more : List ImuMark} (h : ProvesLive trace)
    (hquiet : ∀ level, .published level ∉ more) : ProvesLive (trace ++ more) := by
  refine h.append fun front level back hsplit ↦ absurd ?_ (hquiet level)
  rw [hsplit]
  exact List.mem_append_right _ List.mem_cons_self

theorem published_not_mem_frames (frames : List Quat) (level : DiagnosticLevel) :
    ImuMark.published level ∉ frames.map fun _ ↦ .frame := by
  intro hmem
  obtain ⟨_, _, hmark⟩ := List.mem_map.mp hmem
  cases hmark

/-- The invariant of a run: without a frame since the latest activation began, the counter has
changed before the next status is due. -/
structure Watches (w : Watched) (trace : List ImuMark) : Prop where
  opened : w.component.hardware.kestrel.isOpen = true → .began ∈ trace
  counted : w.component.hardware.kestrel.feedback.imu.count = w.countBegun + framesSince trace
  recent : framesSince trace = 0 →
    Recent w.component.hardware.lastImuCountChange w.component.hardware.lastDiagPub
  live : ProvesLive trace

section run

variable {w : Watched} {next : Component} {trace : List ImuMark} {effects : List Effect}

/-- A step that publishes nothing and leaves the trackers alone. -/
theorem Watches.congr (h : Watches w trace) (hcontinues : Continues w.component effects next)
    (hopen : next.hardware.kestrel.isOpen = true → w.component.hardware.kestrel.isOpen = true)
    (hchange : next.hardware.lastImuCountChange = w.component.hardware.lastImuCountChange)
    (hpub : next.hardware.lastDiagPub = w.component.hardware.lastDiagPub) :
    Watches ⟨next, w.countBegun⟩ (trace ++ (imuQuats effects).map fun _ ↦ .frame) where
  opened hnext := List.mem_append_left _ (h.opened (hopen hnext))
  counted := by
    rw [framesSince_append_frames, hcontinues.imuCount, h.counted]
    exact Nat.add_assoc _ _ _
  recent hnone := by
    rw [framesSince_append_frames] at hnone
    dsimp only
    rw [hchange, hpub]
    exact h.recent (by omega)
  live := h.live.append_quiet (published_not_mem_frames _)

/-- An activation begins a new count. It resets the trackers, or leaves them alone. -/
theorem Watches.activate (h : Watches w trace) (input : MyDiffbotSystemHardware.ActivateInput)
    (hfresh : CountsFresh w (.activate input))
    (hstep : component.step w.component (.activate input) = some (next, effects)) :
    Watches ⟨next, w.component.hardware.kestrel.feedback.imu.count⟩
      (trace ++ ([.began] ++ (imuQuats effects).map fun _ ↦ .frame)) := by
  have hcontinues := step_continues hstep
  have hbegan : framesSince (trace ++ [.began]) = 0 := framesSince_append_singleton trace .began
  rw [← List.append_assoc]
  refine ⟨fun _ ↦ by simp, ?_, fun _ ↦ ?_, ?_⟩
  · rw [framesSince_append_frames, hbegan, Nat.zero_add]
    exact hcontinues.imuCount
  · cases steps_of_step hstep with
    | activate input =>
      dsimp only
      by_cases hsuccess : (w.component.hardware.onActivate input).1 = .success
      · obtain ⟨_, _, _, _, _, _, hactivate⟩ :=
          w.component.hardware.onActivate_of_success input hsuccess
        rw [hactivate]
        exact recent_self input.now
      · obtain ⟨hchange, hpub⟩ := w.component.hardware.onActivate_trackers input hsuccess
        rw [hchange, hpub]
        exact hfresh.resolve_left hsuccess
  · rw [List.append_assoc]
    refine h.live.append_quiet fun level hmem ↦ ?_
    rcases List.mem_append.mp hmem with hmem | hmem
    · cases List.mem_singleton.mp hmem
    · exact published_not_mem_frames _ level hmem

/-- Without a frame since the latest activation began, a `read` believes in a change before the next
status is due. -/
theorem Watches.recent_read (h : Watches w trace) (input : MyDiffbotSystemHardware.ReadInput)
    (hfresh : CountsFresh w (.read input))
    (hopen : w.component.hardware.kestrel.isOpen = true)
    (hnone : framesSince trace + (imuQuats (w.component.hardware.read input).2.2).length = 0) :
    Recent (w.component.hardware.imuCountChange input) w.component.hardware.lastDiagPub := by
  obtain ⟨hsince, hquats⟩ := Nat.add_eq_zero_iff.mp hnone
  have hevolves := (w.component.hardware.read_evolves input).1
  have hcount : (w.component.hardware.kestrel.read input.poll).1.feedback.imu.count =
      w.component.hardware.kestrel.feedback.imu.count := by
    rw [← w.component.hardware.read_kestrel input hopen, hevolves.feedback,
      Feedback.foldl_imuCount]
    exact congrArg _ hquats
  have hbegun : w.component.hardware.kestrel.feedback.imu.count = w.countBegun := by
    rw [h.counted, hsince, Nat.add_zero]
  unfold MyDiffbotSystemHardware.imuCountChange MyDiffbotSystemHardware.changeAt
  dsimp only
  rw [hcount, hbegun]
  split_ifs with hchanged
  · exact hfresh.2 ⟨hopen, List.length_eq_zero_iff.mp hquats, hbegun, Ne.symm hchanged⟩
  · exact h.recent hsince

/-- A `read` that is due calls the data stale unless a frame was parsed. -/
theorem Watches.read (h : Watches w trace) (input : MyDiffbotSystemHardware.ReadInput)
    (hfresh : CountsFresh w (.read input))
    (hstep : component.step w.component (.read input) = some (next, effects)) :
    Watches ⟨next, w.countBegun⟩ (trace ++ ((imuQuats effects).map (fun _ ↦ .frame) ++
      (published effects).map fun status ↦ .published status.level)) := by
  have hcontinues := step_continues hstep
  cases steps_of_step hstep with
  | read input hlifecycle =>
    cases hopen : w.component.hardware.kestrel.isOpen with
    | false =>
      rw [w.component.hardware.read_of_closed input hopen] at hcontinues ⊢
      have hsame := h.congr hcontinues id rfl rfl
      exact hsame
    | true =>
      have hrecent := h.recent_read input hfresh hopen
      obtain ⟨hchange, hpub, hpublished⟩ := w.component.hardware.read_status input hopen
      obtain ⟨⟨hdiagPub, himuStale⟩, _⟩ := hfresh
      have hlevels : (published (w.component.hardware.read input).2.2).map
          (fun status ↦ ImuMark.published status.level) =
          ((published (w.component.hardware.read input).2.2).map DiagnosticStatus.level).map
            .published := by
        rw [List.map_map]
        rfl
      have hbegan := h.opened hopen
      rw [hlevels, ← List.append_assoc]
      refine ⟨fun _ ↦ by simp [hbegan], ?_, fun hnone ↦ ?_, ?_⟩
      · rw [framesSince_append_published, framesSince_append_frames, hcontinues.imuCount, h.counted]
        exact Nat.add_assoc _ _ _
      · rw [framesSince_append_published, framesSince_append_frames] at hnone
        dsimp only
        rw [hchange, hpub]
        split_ifs with hdue
        · exact (hrecent hnone).of_due (of_decide_eq_true hdue) hdiagPub
        · exact hrecent hnone
      · refine (h.live.append_quiet (published_not_mem_frames _)).append
          fun front level back hsplit hlevel ↦ ?_
        obtain ⟨levels, rest, hlevels, rfl, hrest⟩ := List.map_eq_append_iff.mp hsplit
        refine live_iff.mpr ⟨by simp [hbegan], fun hnone ↦ hlevel ?_⟩
        rw [framesSince_append_published, framesSince_append_frames] at hnone
        have hrest' : ImuMark.published level ∈ rest.map .published := by
          rw [hrest]
          exact List.mem_cons_self
        obtain ⟨_, hmember, hequal⟩ := List.mem_map.mp hrest'
        obtain rfl := ImuMark.published.inj hequal
        have hmem : _ ∈ (published (w.component.hardware.read input).2.2).map
            DiagnosticStatus.level := hlevels ▸ List.mem_append_right levels hmember
        obtain ⟨status, hstatus, rfl⟩ := List.mem_map.mp hmem
        exact w.component.hardware.level_of_published input hopen (hrecent hnone) himuStale
          status hstatus

theorem Watches.step {later : Watched} {event : Event} {marks : List ImuMark} (h : Watches w trace)
    (hfresh : CountsFresh w event) (hstep : diagnosticsWatch.step w event = some (later, marks)) :
    Watches later (trace ++ marks) := by
  obtain ⟨⟨next, effects⟩, hcomponent, hresult⟩ := Option.map_eq_some_iff.mp hstep
  obtain ⟨rfl, rfl⟩ := Prod.mk.inj hresult
  have hcontinues := step_continues hcomponent
  unfold imuMarks
  cases event with
  | activate input =>
    rw [List.append_nil]
    exact h.activate input hfresh hcomponent
  | read input => exact h.read input hfresh hcomponent
  | setJointCommand name value | setGpioCommand name value | configure =>
    rw [List.append_nil]
    cases steps_of_step hcomponent
    exact h.congr hcontinues id rfl rfl
  | cleanup =>
    rw [List.append_nil]
    cases steps_of_step hcomponent
    refine h.congr hcontinues (fun hopen ↦ ?_) rfl rfl
    rw [w.component.hardware.onCleanup_isOpen] at hopen
    cases hopen
  | deactivate input =>
    rw [List.append_nil]
    cases steps_of_step hcomponent
    obtain ⟨k, hstate, hevolves⟩ := w.component.hardware.onDeactivate_eq input
    refine h.congr hcontinues (fun hopen ↦ ?_) rfl rfl
    rw [← hevolves.isOpen]
    rw [hstate] at hopen
    exact hopen
  | write input =>
    rw [List.append_nil]
    cases steps_of_step hcomponent
    obtain ⟨_, _, _, _, _, _, hstate, hevolves⟩ := write_keeps w.component.hardware input
    refine h.congr hcontinues (fun hopen ↦ ?_) ?_ ?_
    · rw [← hevolves.isOpen]
      rw [hstate] at hopen
      exact hopen
    · dsimp only
      rw [hstate]
    · dsimp only
      rw [hstate]

end run

/-- The component after `on_init`, with no activation behind it. -/
def Watched.initial (info : HardwareInfo) (params : HardwareParameters) : Watched :=
  ⟨.unconfigured (MyDiffbotSystemHardware.onInit info params).2, 0⟩

theorem onInit_trackers (info : HardwareInfo) (params : HardwareParameters) :
    (MyDiffbotSystemHardware.onInit info params).2.kestrel.isOpen = false ∧
      (MyDiffbotSystemHardware.onInit info params).2.kestrel.feedback.imu.count = 0 ∧
      (MyDiffbotSystemHardware.onInit info params).2.lastImuCountChange = 0 ∧
      (MyDiffbotSystemHardware.onInit info params).2.lastDiagPub = 0 := by
  unfold MyDiffbotSystemHardware.onInit
  dsimp only
  split
  · refine ⟨?_, rfl, rfl, rfl⟩
    unfold Kestrel.configure SerialTransport.configure
    dsimp only
    split <;> rfl
  · exact ⟨rfl, rfl, rfl, rfl⟩

theorem watches_initial (info : HardwareInfo) (params : HardwareParameters) :
    Watches (.initial info params) [] := by
  obtain ⟨hclosed, hcount, hchange, hpub⟩ := onInit_trackers info params
  refine ⟨fun hopen ↦ ?_, hcount, fun _ ↦ ?_, fun front level back hsplit ↦ ?_⟩
  · exact absurd (hclosed.symm.trans hopen) Bool.false_ne_true
  · change Recent (MyDiffbotSystemHardware.onInit info params).2.lastImuCountChange
      (MyDiffbotSystemHardware.onInit info params).2.lastDiagPub
    rw [hchange, hpub]
    exact recent_self 0
  · exact absurd hsplit.symm (by simp)

/-- In every run that counts no old frames late, a status that is not an error proves that an IMU
frame was parsed since the latest activation began. -/
theorem provesLive_of_countsFresh {info : HardwareInfo} {params : HardwareParameters}
    {events : List Event} {final : Watched} {trace : List ImuMark}
    (hrun : diagnosticsWatch.run (.initial info params) events = some (final, trace))
    (hfresh : diagnosticsWatch.Along CountsFresh (.initial info params) events) :
    ProvesLive trace :=
  (Machine.run_invariant_nil Watches (fun hbefore hallowed hstep ↦ hbefore.step hallowed hstep) hrun
    hfresh (watches_initial info params)).live

/-! ## Two sessions of the robot -/

/-- A heartbeat of a base whose IMU is healthy. -/
def heartbeatBytes : List Byte := buildFrame MsgId.heartbeat (bytesOf 16 0 ++ [0x02#8])

/-- The marks of a run of the robot, if each of its steps counts fresh frames only. -/
def watchRobot (events : List Event) : Option (Bool × List ImuMark) :=
  (diagnosticsWatch.run (.initial diffbotInfo diffbotParameters) events).map fun result ↦
    (decide (diagnosticsWatch.Along CountsFresh (.initial diffbotInfo diffbotParameters) events),
      result.2)

/-- A session with IMU frames. -/
def liveSession : List Event :=
  [.configure, .activate (activateAt 0), .read (readAt 500000000 heartbeatBytes),
    .read (readAt 1000000000 (imuDataBytes 16384 0 0 0)), .deactivate deactivateAcked]

/-- A second session, whose first `read` comes late and finds no bytes. -/
def lateSession : List Event :=
  [.activate (activateAt 5000000000), .read (readAt 6000000000 [])]

theorem provesLive_of_countsFresh_session :
    ∃ final trace,
      diagnosticsWatch.run (.initial diffbotInfo diffbotParameters) liveSession =
        some (final, trace) ∧
      trace = [.began, .frame, .published .warn] ∧ ProvesLive trace := by
  have hwatch : watchRobot liveSession = some (true, [.began, .frame, .published .warn]) := by
    decide +kernel
  obtain ⟨⟨final, trace⟩, hrun, hresult⟩ := Option.map_eq_some_iff.mp hwatch
  obtain ⟨hfresh, htrace⟩ := Prod.mk.inj hresult
  exact ⟨final, trace, hrun, htrace, provesLive_of_countsFresh hrun (of_decide_eq_true hfresh)⟩

/-- The readings of the clock that the diagnostic depends on. -/
def clockReadings : Event → List Time
  | .activate input => [input.now]
  | .read input => [input.diagDue, input.diagPub, input.imuChange, input.imuStale]
  | _ => []

/-- The late `read` counts the frames of the first session as new. -/
theorem not_provesLive :
    ¬∀ info params events final trace,
      diagnosticsWatch.run (.initial info params) events = some (final, trace) →
      (events.flatMap clockReadings).Pairwise (· ≤ ·) → ProvesLive trace := by
  intro h
  have hwatch : watchRobot (liveSession ++ lateSession) =
      some (false, [.began, .frame, .published .warn, .began, .published .warn]) := by
    decide +kernel
  obtain ⟨⟨final, trace⟩, hrun, hresult⟩ := Option.map_eq_some_iff.mp hwatch
  obtain ⟨-, rfl⟩ := Prod.mk.inj hresult
  have hlive := h _ _ _ _ _ hrun (by decide) [.began, .frame, .published .warn, .began] .warn [] rfl
    (by decide)
  exact (live_iff.mp hlive).2 rfl

end MyDiffbot.System
