import SchemaLedger.Load.Directory

/-! Activities that only differ in their reports agree on what they load. -/

namespace SchemaLedger

namespace Loading

variable {α β γ δ : Type} {fit : α → β → Prop} {after : γ → δ → Prop} {left : Loading α}
  {right : Loading β}

/-- What follows an activity goes on from its value and its reports, unless there was an error. -/
theorem bind_apply (activity : Loading α) (next : α → Loading β)
    (events : List Event) : (activity >>= next) events =
      match activity events with
      | (.ok value, later) => next value later
      | (.error error, later) => (.error error, later) := by
  -- The second activity is run with the events of the first, and only if that succeeds.
  change StateT.bind activity (ExceptT.bindCont next) events = _
  simp only [StateT.bind, bind]
  rcases activity events with ⟨_ | _, _⟩ <;> rfl

/-- What follows an activity succeeds only where the activity has succeeded before. -/
theorem bind_ok {activity : Loading α} {next : α → Loading β} {events reported : List Event}
    {value : β} (done : (activity >>= next) events = (.ok value, reported)) :
    ∃ found later, activity events = (.ok found, later) ∧
      next found later = (.ok value, reported) := by
  -- The first activity cannot have failed, as its error would be the result.
  rw [bind_apply] at done
  rcases ran : activity events with ⟨error | found, later⟩
  · rw [ran] at done
    cases done
  · rw [ran] at done
    exact ⟨found, later, rfl, done⟩

/-- An outcome that nothing is reported about is a success as it stands. -/
theorem lift_ok {outcome : Except MigrationError α} {events reported : List Event} {value : α}
    (done : (liftM outcome : Loading α) events = (.ok value, reported)) : outcome = .ok value := by
  -- An outcome that is lifted tells nothing and is the result.
  cases outcome with
  | error error => cases done
  | ok found =>
    cases done
    rfl

/-- Two outcomes are alike if they are one error, or values that fit together. -/
inductive Alike (fit : α → β → Prop) : Except MigrationError α → Except MigrationError β → Prop
  | value {one : α} {other : β} (fits : fit one other) : Alike fit (.ok one) (.ok other)
  | error (error : MigrationError) : Alike fit (.error error) (.error error)

/-- Outcomes are the same if they are alike and only equal values fit together. -/
theorem Alike.eq {one other : Except MigrationError α} (alike : Alike (· = ·) one other) :
    one = other := by
  -- Two outcomes are the same error or have the same value.
  cases alike with
  | value same => rw [same]
  | error error => rfl

/-- Outcomes remain alike if what becomes of the first value still fits the second. -/
theorem Alike.map_left {one : Except MigrationError α} {other : Except MigrationError β}
    {change : α → γ} {after : γ → β → Prop} (alike : Alike fit one other)
    (still : ∀ first second, fit first second → after (change first) second) :
    Alike after (one.map change) other := by
  -- Errors are left alone by the change.
  cases alike with
  | value fits => exact .value (still _ _ fits)
  | error error => exact .error error

/-- Outcomes remain alike if the first value still fits what becomes of the second. -/
theorem Alike.map_right {one : Except MigrationError α} {other : Except MigrationError β}
    {change : β → δ} {after : α → δ → Prop} (alike : Alike fit one other)
    (still : ∀ first second, fit first second → after first (change second)) :
    Alike after one (other.map change) := by
  -- Errors are left alone by the change.
  cases alike with
  | value fits => exact .value (still _ _ fits)
  | error error => exact .error error

/-- Outcomes remain alike if what becomes of values that fit together fits together again. -/
theorem Alike.map {one : Except MigrationError α} {other : Except MigrationError β} {left : α → γ}
    {right : β → δ} (alike : Alike fit one other)
    (still : ∀ first second, fit first second → after (left first) (right second)) :
    Alike after (one.map left) (other.map right) :=
  -- One side is changed behind the other.
  (alike.map_left fun _ _ => still _ _).map_right fun _ _ => id

/-- Two activities agree if their outcomes are alike, whatever has been reported before. -/
def Agree (left : Loading α) (right : Loading β) (fit : α → β → Prop) : Prop :=
  ∀ events others, Alike fit (left events).1 (right others).1

/-- Values that fit together agree. -/
theorem agree_pure {one : α} {other : β} (fits : fit one other) :
    Agree (pure one) (pure other) fit := fun _ _ => .value fits

/-- Outcomes that are alike and that nothing was reported about agree. -/
theorem agree_of_alike {one : Except MigrationError α} {other : Except MigrationError β}
    (alike : Alike fit one other) : Agree (liftM one) (liftM other) fit := by
  -- A lifted outcome does not look at the events.
  intro events others
  cases alike with
  | value fits => exact .value fits
  | error error => exact .error error

/-- An outcome that nothing was reported about agrees with itself. -/
theorem agree_lift (outcome : Except MigrationError α) :
    Agree (liftM outcome) (liftM outcome) (· = ·) := by
  -- The two are one and the same.
  cases outcome with
  | ok value => exact agree_of_alike (.value rfl)
  | error error => exact agree_of_alike (.error error)

/-- Activities that agree are followed by others that agree on what they found. -/
theorem Agree.bind {next : α → Loading γ} {further : β → Loading δ} (first : Agree left right fit)
    (second : ∀ one other, fit one other → Agree (next one) (further other) after) :
    Agree (left >>= next) (right >>= further) after := by
  intro events others
  have alike := first events others
  rw [bind_apply, bind_apply]
  rcases ran : left events with ⟨outcome, reported⟩
  rcases ranToo : right others with ⟨outcomeToo, reportedToo⟩
  rw [ran, ranToo] at alike
  cases alike with
  -- What has been reported may differ by now, but that does not matter to those that follow.
  | value fits => exact second _ _ fits reported reportedToo
  | error error => exact .error error

/-- Reports do not change the outcome. -/
theorem Agree.report (agree : Agree left right fit) (event other : Event) :
    Agree (do report event; left) (do report other; right) fit :=
  -- An event more in front of either does not matter.
  fun events others =>
  agree (events ++ [event]) (others ++ [other])

/-- Reporting about each of several things never fails. -/
theorem forM_report (items : List α) (event : α → Event) (events : List Event) :
    items.forM (fun item => report (event item)) events = (.ok (), events ++ items.map event) := by
  -- By induction on the items, each of which adds its event.
  induction items generalizing events with
  | nil => exact congrArg (Prod.mk _) (List.append_nil events).symm
  | cons item rest ih => exact (ih (events ++ [event item])).trans (by simp)

/-- Values that are returned after reports agree if the values are the same. -/
theorem agree_reported {one other : α} (same : one = other) (items others : List β)
    (event : β → Event) :
    Agree (do items.forM fun item => report (event item); return one)
      (do others.forM fun item => report (event item); return other) (· = ·) := by
  -- However many events are told, the value is returned behind them.
  intro events more
  rw [bind_apply, bind_apply, forM_report, forM_report]
  exact .value same

end Loading

end SchemaLedger
