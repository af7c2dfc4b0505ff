import CorelinkRunners.Pg.Ceiling

/-!
# The life of an external reservation

Whatever calls run side by side, a reservation is prepared, activated and settled, or cancelled, or
written as cancelled where there was none; what it was granted never changes, and once it is
cancelled or settled nothing about it does (`ExternalRow.Step`, `Db.Onward`). The accruals move by
exactly what is newly settled. With it a call that was answered once leaves the tables alone when it
is made again.
-/

namespace CorelinkRunners

open Kit

/-! ## Steps of a reservation -/

inductive ExternalRow.Step : Option ExternalRow → Option ExternalRow → Prop
  | stay (row : Option ExternalRow) : Step row row
  | prepare (grant : ExternalComputeReservation) (reserved : Nat) :
      Step none (some ⟨grant, .prepared, reserved, none, none⟩)
  /-- A cancellation that arrived first. -/
  | fence (grant : ExternalComputeReservation) (reserved : Nat) :
      Step none (some ⟨grant, .cancelled, reserved, none, none⟩)
  | activate {row : ExternalRow} (prepared : row.state = .prepared) :
      Step (some row) (some { row with state := .active })
  | cancel {row : ExternalRow} (prepared : row.state = .prepared) :
      Step (some row) (some { row with state := .cancelled })
  | settle {row : ExternalRow} (active : row.state = .active) (actual : Nat) (digest : String) :
      Step (some row) (some { row with
        state := .settled
        actualVcpuMs := some actual
        terminalEvidenceDigest := some digest })

structure ExternalRow.Later (row later : ExternalRow) : Prop where
  grant : later.grant = row.grant
  reserved : later.reservedVcpuMs = row.reservedVcpuMs
  active : row.state = .active → later.state = .active ∨ later.state = .settled
  final : row.state = .cancelled ∨ row.state = .settled → later = row

/-- Every reservation is still there, and went on in its life if anywhere. -/
def Db.Onward (db db' : Db) : Prop :=
  ∀ (id : String) (row : ExternalRow), db.externalComputeReservations[id]? = some row →
    ∃ later, db'.externalComputeReservations[id]? = some later ∧ row.Later later

theorem ExternalRow.Later.refl (row : ExternalRow) : row.Later row :=
  ⟨rfl, rfl, .inl, fun _ => rfl⟩

theorem ExternalRow.Later.trans {a b c : ExternalRow} (h : a.Later b) (h' : b.Later c) :
    a.Later c where
  grant := h'.grant.trans h.grant
  reserved := h'.reserved.trans h.reserved
  active now := by
    rcases h.active now with active | settled
    · exact h'.active active
    · rw [h'.final (.inr settled)]
      exact .inr settled
  final now := by
    have same := h.final now
    subst same
    exact h'.final now

variable {row : ExternalRow}

theorem ExternalRow.Later.activated {later : ExternalRow} (h : row.Later later)
    (now : row.state = .active ∨ row.state = .settled) :
    later.state = .active ∨ later.state = .settled := by
  rcases now with active | settled
  · exact h.active active
  · rw [h.final (.inr settled)]
    exact .inr settled

theorem ExternalRow.Later.cancelled {later : ExternalRow} (h : row.Later later)
    (now : row.state = .cancelled) : later.state = .cancelled := by
  rw [h.final (.inl now)]
  exact now

theorem ExternalRow.Step.later {after : Option ExternalRow}
    (h : ExternalRow.Step (some row) after) :
    ∃ later, after = some later ∧ row.Later later := by
  cases h with
  | stay => exact ⟨row, rfl, .refl row⟩
  | activate prepared =>
    refine ⟨_, rfl, rfl, rfl, fun _ => .inl rfl, ?_⟩
    rw [prepared]
    rintro (h | h) <;> cases h
  | cancel prepared =>
    refine ⟨_, rfl, rfl, rfl, ?_, ?_⟩ <;> rw [prepared]
    · intro h
      cases h
    · rintro (h | h) <;> cases h
  | settle active =>
    refine ⟨_, rfl, rfl, rfl, fun _ => .inr rfl, ?_⟩
    rw [active]
    rintro (h | h) <;> cases h

/-- What a reservation, once settled, adds to a tenant's usage of a period. -/
def ExternalRow.settledWeight (tenant : String) (periodKey : Nat) (row : ExternalRow) : Nat :=
  if row.grant.tenantId = tenant ∧ row.grant.periodKey = periodKey ∧ row.state = .settled then
    row.actualVcpuMs.getD 0
  else 0

def Db.settledIn (db : Db) (tenant : String) (periodKey : Nat) : Nat :=
  db.externalComputeReservations.sumBy fun _ row => row.settledWeight tenant periodKey

theorem ExternalRow.settledWeight_open (h : row.state ≠ .settled) (tenant : String)
    (periodKey : Nat) : row.settledWeight tenant periodKey = 0 :=
  if_neg fun all => h all.2.2

variable {db : Db}

theorem Db.settledIn_external
    (unsettled : ∀ before, db.externalComputeReservations[row.grant.reservationId]? = some before →
      before.state ≠ .settled) (tenant : String) (periodKey : Nat) :
    (db.apply (.external row)).settledIn tenant periodKey =
      row.settledWeight tenant periodKey + db.settledIn tenant periodKey := by
  have insert : (db.apply (.external row)).settledIn tenant periodKey =
      row.settledWeight tenant periodKey +
        OrdMap.sumBy (fun _ row => ExternalRow.settledWeight tenant periodKey row)
          (db.externalComputeReservations.erase row.grant.reservationId) := OrdMap.sumBy_insert
  rw [insert]
  congr 1
  unfold Db.settledIn
  cases found : db.externalComputeReservations[row.grant.reservationId]? with
  | none => rw [OrdMap.erase_of_get_none found]
  | some before =>
    rw [OrdMap.sumBy_of_get found,
      ExternalRow.settledWeight_open (unsettled before found) tenant periodKey, Nat.zero_add]

/-! ## Moves -/

namespace PgMove

variable {strict : Bool} {call : PgCall} {held : PgLock → Prop} {db : Db} {ws : List Write}

theorem step_external {row : ExternalRow}
    (step : ExternalRow.Step db.externalComputeReservations[row.grant.reservationId]? (some row))
    (id : String) : ExternalRow.Step db.externalComputeReservations[id]?
      (db.externalComputeReservations.insert row.grant.reservationId row)[id]? := by
  rw [OrdMap.get_insert]
  split
  next same =>
    subst same
    exact step
  · exact .stay _

/-- **Every move is a step of every reservation.** -/
theorem reservation_step (move : PgMove strict call held db ws) (id : String) :
    ExternalRow.Step db.externalComputeReservations[id]?
      (db.applyAll ws).externalComputeReservations[id]? := by
  cases move with
  | idle | reserve | rebind | move | close | delete | claim | baseline => exact .stay _
  | @reserveExternal r _ reserved _ _ _ fresh =>
    refine step_external ?_ id
    rw [fresh]
    exact .prepare r reserved
  | @fence r reserved _ _ fresh =>
    refine step_external ?_ id
    rw [fresh]
    exact .fence r reserved
  | @turn row target _ _ found prepared aim =>
    refine step_external ?_ id
    rw [found]
    rcases aim with rfl | rfl
    · exact .activate prepared
    · exact .cancel prepared
  | settle _ _ _ found _ active =>
    refine step_external ?_ id
    rw [found]
    exact .settle active _ _

theorem onward (move : PgMove strict call held db ws) : db.Onward (db.applyAll ws) := by
  intro id row found
  have step := move.reservation_step id
  rw [found] at step
  exact step.later

end PgMove

theorem Db.Onward.refl (db : Db) : db.Onward db := fun _ row found => ⟨row, found, .refl row⟩

theorem Db.Onward.trans {db' db'' : Db} (h : db.Onward db') (h' : db'.Onward db'') :
    db.Onward db'' := by
  intro id row found
  obtain ⟨later, found', first⟩ := h id row found
  obtain ⟨last, found'', second⟩ := h' id later found'
  exact ⟨last, found'', first.trans second⟩

/-- The four calls on external reservations, with the tuple each names. -/
def PgCall.external : PgCall → Option ExternalComputeReservation
  | reserve r _ | activate r _ | cancel r _ | settle r _ => some r
  | _ => none

/-- **The accruals move by what is newly settled**, and by nothing else, as long as only external
reservations are at work. -/
theorem PgMove.settles {strict : Bool} {call : PgCall} {held : PgLock → Prop} {ws : List Write}
    (external : call.external.isSome = true) (move : PgMove strict call held db ws)
    (tenant : String) (periodKey : Nat) :
    (db.applyAll ws).accrued tenant periodKey + db.settledIn tenant periodKey =
      db.accrued tenant periodKey + (db.applyAll ws).settledIn tenant periodKey := by
  -- a reservation written in a state other than settled changes neither side
  have unaccrued : ∀ row : ExternalRow, row.state ≠ .settled →
      (∀ before, db.externalComputeReservations[row.grant.reservationId]? = some before →
        before.state ≠ .settled) →
      (db.applyAll [.external row]).accrued tenant periodKey + db.settledIn tenant periodKey =
        db.accrued tenant periodKey + (db.applyAll [.external row]).settledIn tenant periodKey := by
    intro row unsettled before
    have weight := row.settledWeight_open unsettled tenant periodKey
    have sum := Db.settledIn_external before tenant periodKey
    rw [weight, Nat.zero_add] at sum
    exact congrArg (db.accrued tenant periodKey + ·) sum.symm
  cases move with
  | idle | reserve | rebind | move | delete | claim => rfl
  | close _ _ _ _ _ _ _ _ moves =>
    subst moves
    cases external
  | baseline initializes =>
    subst initializes
    cases external
  | @reserveExternal r _ reserved _ _ _ fresh =>
    exact unaccrued _ nofun fun before found => nomatch fresh.symm.trans found
  | @fence r reserved _ _ fresh =>
    exact unaccrued _ nofun fun before found => nomatch fresh.symm.trans found
  | @turn row target _ _ found prepared aim =>
    refine unaccrued { row with state := target } ?_ ?_
    · rcases aim with rfl | rfl <;> exact nofun
    · intro before at_id
      cases found.symm.trans at_id
      rw [prepared]
      exact nofun
  | @settle row r settlement _ _ _ found fits active =>
    let settled : ExternalRow := { row with
      state := .settled
      actualVcpuMs := some settlement.actualVcpuMs
      terminalEvidenceDigest := some settlement.terminalEvidenceDigest }
    have sum : (db.apply (.external settled)).settledIn tenant periodKey =
        settled.settledWeight tenant periodKey + db.settledIn tenant periodKey := by
      refine Db.settledIn_external ?_ tenant periodKey
      intro before at_id
      cases found.symm.trans at_id
      rw [active]
      exact nofun
    have accrued := Db.accrued_accrual (db.apply (.external settled)) row.grant.tenantId tenant
      row.grant.periodKey periodKey
      (db.accrued row.grant.tenantId row.grant.periodKey + settlement.actualVcpuMs)
    refine (congrArg (· + db.settledIn tenant periodKey) accrued).trans ?_
    refine Eq.trans ?_ (congrArg (db.accrued tenant periodKey + ·) sum.symm)
    by_cases own : row.grant.tenantId = tenant ∧ row.grant.periodKey = periodKey
    · obtain ⟨rfl, rfl⟩ := own
      have weight : settled.settledWeight row.grant.tenantId row.grant.periodKey =
          settlement.actualVcpuMs := if_pos ⟨rfl, rfl, rfl⟩
      rw [weight, if_pos rfl]
      omega
    · have weight : settled.settledWeight tenant periodKey = 0 :=
        if_neg fun all => own ⟨all.1, all.2.1⟩
      rw [weight, if_neg fun same => own ⟨(Prod.mk.inj same).1, (Prod.mk.inj same).2⟩, Nat.zero_add]
      rfl

end CorelinkRunners
