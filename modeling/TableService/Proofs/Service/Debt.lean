import TableService.Proofs.Outbox.Lifecycle
import TableService.Proofs.Service.Dispatch

/-!
# Attempts that are left

- `Entry.remaining`: how many attempts an open entry has left. Every mark takes at least one.
- `Dispatch.owed`: the attempts that an entry may still cost. One that a pass has in hand costs one
  even if it has been given up in the meantime.
- `Dispatch.Pays`: a step settles no attempt that is not paid for.
- `Dispatch.Sound`: what holds at any time, as `Dispatch.Sound.step` keeps it.
-/

namespace TableService

/-! ## What is left of an entry -/

namespace Entry

/-- The attempts that are left, as long as the entry is open. -/
def remaining (e : Entry) : Nat :=
  if e.status.isTerminal then 0 else e.policy.maxRetries.toNat - e.retryCount.toNat

variable {e e' : Entry}

theorem remaining_of_isTerminal (h : e.status.isTerminal = true) : e.remaining = 0 := if_pos h

theorem remaining_of_isOpen (h : e.status.isTerminal = false) :
    e.remaining = e.policy.maxRetries.toNat - e.retryCount.toNat := by
  rw [remaining, h]
  rfl

theorem remaining_le (e : Entry) : e.remaining ≤ e.policy.maxRetries.toNat := by
  unfold remaining
  split
  · exact Nat.zero_le _
  · exact Nat.sub_le ..

theorem Consistent.one_le_remaining (h : e.Consistent) (hopen : e.status.isTerminal = false) :
    1 ≤ e.remaining := by
  have hlt := lt_of_canRetry (h.canRetry hopen)
  rw [remaining_of_isOpen hopen]
  omega

/-- An open entry is marked, at the cost of an attempt at least. -/
structure Marked (e e' : Entry) : Prop where
  isOpen : e.status.isTerminal = false
  same : e.Same e'
  consistent : e'.Consistent
  remaining : e'.remaining + 1 ≤ e.remaining

theorem Consistent.marked_abandoned (h : e.Consistent) (hopen : e.status.isTerminal = false) :
    e.Marked e.abandoned := by
  refine ⟨hopen, same_abandoned e, h.markDeadLettered (markDeadLettered_ok hopen), ?_⟩
  rw [remaining_of_isTerminal rfl]
  exact h.one_le_remaining hopen

theorem Consistent.marked {now : Instant} {attempt : Attempt} (h : e.Consistent)
    (hopen : e.status.isTerminal = false) (hmark : e.mark now attempt = .ok e')
    (houtcome : e.Outcome now attempt e') : e.Marked e' := by
  have hretry := h.canRetry hopen
  have hlt := lt_of_canRetry hretry
  have hsame := houtcome.same
  cases houtcome with
  | processed =>
    refine ⟨hopen, hsame, h.markProcessed hmark, ?_⟩
    rw [remaining_of_isTerminal rfl]
    exact h.one_le_remaining hopen
  | retried =>
    refine ⟨hopen, hsame, h.markFailed hmark, ?_⟩
    rw [remaining_of_isOpen rfl, remaining_of_isOpen hopen]
    show e.policy.maxRetries.toNat - (e.retryCount + 1).toNat + 1 ≤ _
    rw [toNat_retryCount_add_one hretry]
    omega
  | spent =>
    refine ⟨hopen, hsame, h.markFailed hmark, ?_⟩
    rw [remaining_of_isTerminal rfl]
    exact h.one_le_remaining hopen

/-- A new entry has all its attempts left. -/
theorem IsNew.consistent {policy : RetryPolicy} {id kind : String} {t : Instant}
    {event : DomainEvent} (h : IsNew policy id kind t event e) (hretries : policy.maxRetries ≠ 0) :
    e.Consistent where
  allows := by
    rw [h.policy]
    exact UInt32.pos_iff_ne_zero.mpr hretries
  within := by
    rw [h.retryCount, UInt32.le_iff_toNat_le]
    exact Nat.zero_le _
  pending _ := ⟨h.retryCount, h.lastError⟩
  failed hstatus := by
    rw [h.status] at hstatus
    cases hstatus
  scheduled := by simp [h.nextRetryAt, h.status]
  dated := by simp [h.processedAt, h.status]

end Entry

namespace Service

variable {s : Service} {x : Entry}

/-- Only the id and the type of the entry matter to the mark that it gets. -/
theorem settle_congr {entry : Entry} (hsame : entry.Same x) (attempt : Attempt) :
    s.settle entry attempt = s.settle x attempt := by
  rw [settle, settle, hsame.id, hsame.eventType]

/-- An entry that is over is not marked any more. -/
theorem settle_of_isTerminal (attempt : Attempt) (hn : (s.log.map Entry.id).Nodup) (hx : x ∈ s.log)
    (h : x.status.isTerminal = true) : s.settle x attempt = (false, s) := by
  obtain ⟨err, hrefused⟩ := Log.settle_of_isTerminal s.outage attempt hn hx h
  exact settle_of_error hrefused

/-- To give an entry up changes that entry, or nothing. -/
theorem giveUp_cases (id : String) (hn : (s.log.map Entry.id).Nodup) : s.giveUp id = s ∨
    ∃ e ∈ s.log, e.status.isTerminal = false ∧
      s.giveUp id = s.setLog (s.log.map (Log.put e.abandoned)) := by
  rcases Log.markDeadLettered_cases hn id with ⟨err, hrefused⟩ | ⟨e, he, hopen, hok⟩
  · exact .inl (giveUp_of_error hrefused)
  · exact .inr ⟨e, he, hopen, giveUp_of_ok hok⟩

end Service

namespace Dispatch

/-! ## What entries may still cost -/

/-- The entries that the pass under way has not settled yet. -/
def inHand (w : Dispatch) : List Entry := (w.current.map Prod.fst).toList ++ w.waiting

/-- The attempts that an entry may still cost. -/
def owed (w : Dispatch) (x : Entry) : Nat :=
  if x.id ∈ w.inHand.map Entry.id then max 1 x.remaining else x.remaining

/-- The sum of the attempts that are left of all entries. -/
def outstanding (w : Dispatch) : Nat := (w.log.map Entry.remaining).sum

/-- The sum of the attempts that all entries may still cost. -/
def debt (w : Dispatch) : Nat := (w.log.map w.owed).sum

theorem inHand_of_isIdle {w : Dispatch} (h : w.IsIdle) : w.inHand = [] := by
  rw [inHand, h.waiting, h.current]
  rfl

theorem debt_of_isIdle {w : Dispatch} (h : w.IsIdle) : w.debt = w.outstanding := by
  refine congrArg List.sum (List.map_congr_left fun x _ => if_neg ?_)
  rw [inHand_of_isIdle h]
  exact List.not_mem_nil

/-- What holds at any time of passes over a log whose ids are unique. -/
structure Sound (w : Dispatch) : Prop where
  outage : w.service.outage = []
  batch : 0 < w.service.batchSize
  nodup : (w.log.map Entry.id).Nodup
  kept : ∀ e ∈ w.log, e.Consistent
  hand_nodup : (w.inHand.map Entry.id).Nodup
  hand_mem : ∀ e ∈ w.inHand, ∃ x ∈ w.log, e.Same x

/-- What a step does to an entry of the log, and to what it costs. -/
structure Pays (w w' : Dispatch) (event : Event) (x x' : Entry) : Prop where
  same : x.Same x'
  consistent : x'.Consistent
  owed : w'.owed x' + (if event.settled? = some x.id then 1 else 0) ≤ w.owed x
  /-- Only an open entry is processed, and then it is over. -/
  closed : x.status.isTerminal = true →
    x'.status.isTerminal = true ∧ event.processed? ≠ some x.id
  processed : event.processed? = some x.id → x'.status.isTerminal = true

/-- A step changes the entries of the log one by one, and a commit adds new ones. -/
structure Effect (w : Dispatch) (event : Event) (w' : Dispatch) (f : Entry → Entry)
    (new : List Entry) : Prop where
  log : w'.log = w.log.map f ++ new
  pays : ∀ x ∈ w.log, Pays w w' event x (f x)
  areNew : AreNew w.log new
  committed : event.isCommit = false → new = []
  outage : w'.service.outage = w.service.outage
  batch : w'.service.batchSize = w.service.batchSize

variable {w w' : Dispatch} {event : Event} {x x' : Entry}

theorem Event.settled?_of_processed? {id : String} (h : event.processed? = some id) :
    event.settled? = some id := by
  cases event with
  | settled entry processed =>
    cases processed with
    | true => exact h
    | false => cases h
  | _ => cases h

theorem owed_congr (hid : x'.id = x.id) (hhand : w'.inHand.map Entry.id = w.inHand.map Entry.id)
    (hle : x'.remaining ≤ x.remaining) : w'.owed x' ≤ w.owed x := by
  rw [owed, owed, hid, hhand]
  split
  · omega
  · exact hle

/-- An entry that the step leaves alone. -/
theorem Pays.refl (hx : x.Consistent) (howed : w'.owed x ≤ w.owed x)
    (hsettled : event.settled? ≠ some x.id) : Pays w w' event x x where
  same := .refl x
  consistent := hx
  owed := by
    rw [if_neg hsettled]
    exact howed
  closed hterminal := ⟨hterminal, fun h => hsettled (Event.settled?_of_processed? h)⟩
  processed h := absurd (Event.settled?_of_processed? h) hsettled

theorem areNew_nil (log : Log) : AreNew log [] where
  isNew _ he := absurd he List.not_mem_nil
  nodup := List.nodup_nil
  fresh _ he := absurd he List.not_mem_nil

/-- Nothing happens to the log. -/
theorem Effect.of_same (h : w.Sound) (hlog : w'.log = w.log)
    (hhand : w'.inHand.map Entry.id = w.inHand.map Entry.id) (hsettled : event.settled? = none)
    (houtage : w'.service.outage = w.service.outage)
    (hbatch : w'.service.batchSize = w.service.batchSize) : Effect w event w' id [] where
  log := by rw [hlog, List.map_id, List.append_nil]
  pays x hx := by
    refine .refl (h.kept x hx) (owed_congr rfl hhand (Nat.le_refl _)) ?_
    rw [hsettled]
    exact nofun
  areNew := areNew_nil _
  committed _ := rfl
  outage := houtage
  batch := hbatch

theorem Sound.effect_commit {entries : List Entry} {backend : Backend} (h : w.Sound)
    (areNew : AreNew w.log entries) (hlog : backend.stores.outbox = w.log ++ entries) :
    Effect w (.committed entries) { w with service := { w.service with backend } } id entries where
  log := by
    rw [List.map_id]
    exact hlog
  pays x hx := .refl (h.kept x hx) (owed_congr rfl rfl (Nat.le_refl _)) nofun
  areNew := areNew
  committed := nofun
  outage := rfl
  batch := rfl

theorem Sound.effect_giveUp (h : w.Sound) (id : String) :
    ∃ f, Effect w (.givenUp id) { w with service := w.service.giveUp id } f [] := by
  rcases Service.giveUp_cases id h.nodup with hsame | ⟨e, he, hopen, hput⟩
  · rw [hsame]
    exact ⟨_, .of_same h rfl rfl rfl rfl rfl⟩
  · have hmarked := (h.kept e he).marked_abandoned hopen
    rw [hput]
    refine ⟨Log.put e.abandoned, (List.append_nil _).symm, fun x hx => ?_, areNew_nil _,
      fun _ => rfl, rfl, rfl⟩
    by_cases hid : x.id = e.abandoned.id
    · rw [Log.put_of_eq hid]
      obtain rfl := Log.eq_of_id_eq h.nodup hx he (hid.trans hmarked.same.id)
      have hle := hmarked.remaining
      exact ⟨hmarked.same, hmarked.consistent, owed_congr hmarked.same.id rfl (by omega),
        fun hterminal => absurd hterminal (Bool.eq_false_iff.mp hmarked.isOpen), nofun⟩
    · rw [Log.put_of_ne hid]
      exact .refl (h.kept x hx) (owed_congr rfl rfl (Nat.le_refl _)) nofun

/-- What is fetched is due, and no two entries that are fetched have the same id. -/
theorem Sound.of_findPending {limit : Nat} {entries : List Entry} (h : w.Sound)
    (found : w.service.findPending limit = .ok entries) :
    (∀ e ∈ entries, e ∈ w.log ∧ e.isDue w.service.now = true) ∧
      (entries.map Entry.id).Nodup ∧
      entries = (Log.byTime (w.log.filter (·.isDue w.service.now))).take limit := by
  have heq : entries = w.log.pending w.service.now limit := by
    rw [Service.findPending, Log.fetch, h.outage] at found
    exact (Except.ok.inj found).symm
  obtain ⟨hmem, hids⟩ := Log.pending_spec w.service.now limit h.nodup
  rw [← heq] at hmem hids
  exact ⟨hmem, hids, heq⟩

/-- What is fetched is open, so it has attempts left. -/
theorem Sound.effect_fetch {limit : Nat} {entries : List Entry} (h : w.Sound) (idle : w.IsIdle)
    (found : w.service.findPending limit = .ok entries) :
    Effect w (.fetched w.service entries) { w with waiting := entries } id [] where
  log := by
    rw [List.map_id, List.append_nil]
    rfl
  pays x hx := by
    refine .refl (h.kept x hx) ?_ nofun
    have hidle : w.owed x = x.remaining := by
      rw [owed, inHand_of_isIdle idle]
      exact if_neg List.not_mem_nil
    rw [hidle, owed]
    split
    · rename_i hfetched
      have hhand : inHand { w with waiting := entries } = entries := by
        rw [inHand, idle.current]
        rfl
      rw [hhand] at hfetched
      obtain ⟨e, he, hid⟩ := List.mem_map.mp hfetched
      obtain ⟨hmem, hdue⟩ := (h.of_findPending found).1 e he
      obtain rfl := Log.eq_of_id_eq h.nodup hmem hx hid
      have hle := (h.kept e hx).one_le_remaining (Entry.isOpen_of_isDue hdue)
      omega
    · exact Nat.le_refl _
  areNew := areNew_nil _
  committed _ := rfl
  outage := rfl
  batch := rfl

section

variable {entry : Entry} {rest : List Entry}

/-- To settle an entry is nothing to the others. -/
theorem owed_tail (hhand : w.inHand = entry :: rest) (hhand' : w'.inHand = rest)
    (hid : x.id ≠ entry.id) : w'.owed x = w.owed x := by
  simp only [owed, hhand, hhand', List.map_cons, List.mem_cons, hid, false_or]

/-- What is settled costs one attempt less. -/
theorem owed_head (hhand : w.inHand = entry :: rest) (hhand' : w'.inHand = rest)
    (hnot : entry.id ∉ rest.map Entry.id) (hid : x.id = entry.id) (hid' : x'.id = entry.id)
    (hle : x'.remaining + 1 ≤ max 1 x.remaining) : w'.owed x' + 1 ≤ w.owed x := by
  simp only [owed, hhand, hhand', List.map_cons, List.mem_cons, hid, hid', hnot, true_or, if_true,
    if_false]
  exact hle

end

/-- An attempt is over, and what the entry in hand has cost is paid. -/
theorem Sound.effect_settle {entry : Entry} {attempt : Attempt} (h : w.Sound)
    (ended : w.current = some (entry, attempt)) :
    ∃ f, Effect w (.settled entry (w.service.settle entry attempt).1)
      { w with service := (w.service.settle entry attempt).2, current := none } f [] := by
  have hhand : w.inHand = entry :: w.waiting := by
    rw [inHand, ended]
    rfl
  have hnodup := h.hand_nodup
  rw [hhand, List.map_cons, List.nodup_cons] at hnodup
  obtain ⟨x, hx, hsame⟩ := h.hand_mem entry (hhand ▸ List.mem_cons_self)
  have hother {y : Entry} (hid : y.id ≠ entry.id) (processed : Bool) :
      (Event.settled entry processed).settled? ≠ some y.id :=
    fun heq => hid (Option.some.inj heq).symm
  have hits {y : Entry} (hid : y.id = entry.id) (processed : Bool) :
      (Event.settled entry processed).settled? = some y.id := congrArg some hid.symm
  rw [Service.settle_congr hsame]
  cases hopen : x.status.isTerminal with
  | true =>
    -- the entry has been given up since it was fetched
    rw [Service.settle_of_isTerminal attempt h.nodup hx hopen]
    refine ⟨id, ?_, fun y hy => ?_, areNew_nil _, fun _ => rfl, rfl, rfl⟩
    · rw [List.map_id, List.append_nil]
      rfl
    · by_cases hid : y.id = entry.id
      · obtain rfl := Log.eq_of_id_eq h.nodup hy hx (hid.trans hsame.id.symm)
        refine ⟨.refl y, h.kept y hy, ?_, fun hterminal => ⟨hterminal, nofun⟩, nofun⟩
        rw [if_pos (hits hid _)]
        refine owed_head hhand rfl hnodup.1 hid hid ?_
        have hnone := Entry.remaining_of_isTerminal hopen
        show y.remaining + 1 ≤ _
        omega
      · refine .refl (h.kept y hy) (Nat.le_of_eq (owed_tail hhand rfl hid)) (hother hid _)
  | false =>
    obtain ⟨e', hmark, houtcome, hsettle⟩ := Service.settle_of_isOpen
      (h.outage ▸ Log.records_nil attempt) h.nodup hx hopen ((h.kept x hx).canRetry hopen)
    have hmarked := (h.kept x hx).marked hopen hmark houtcome
    have hid' : e'.id = entry.id := hmarked.same.id.trans hsame.id
    rw [hsettle]
    refine ⟨Log.put e', (List.append_nil _).symm, fun y hy => ?_, areNew_nil _, fun _ => rfl, rfl,
      rfl⟩
    by_cases hid : y.id = entry.id
    · rw [Log.put_of_eq (hid.trans hid'.symm)]
      obtain rfl := Log.eq_of_id_eq h.nodup hy hx (hid.trans hsame.id.symm)
      refine ⟨hmarked.same, hmarked.consistent, ?_, fun hterminal => ?_, fun hdone => ?_⟩
      · rw [if_pos (hits hid _)]
        refine owed_head hhand rfl hnodup.1 hid hid' ?_
        have hle := hmarked.remaining
        omega
      · rw [hopen] at hterminal
        cases hterminal
      · cases hprojected : attempt.isProjected with
        | true =>
          rw [houtcome.status_eq_processed_iff.mpr hprojected]
          rfl
        | false =>
          rw [hprojected] at hdone
          cases hdone
    · rw [Log.put_of_ne fun heq => hid (heq.trans hid')]
      exact .refl (h.kept y hy) (Nat.le_of_eq (owed_tail hhand rfl hid)) (hother hid _)

theorem Sound.effect (h : w.Sound) (hstep : w.Step event w') :
    ∃ f new, Effect w event w' f new := by
  cases hstep with
  | commit areNew log => exact ⟨_, _, h.effect_commit areNew log⟩
  | giveUp id =>
    obtain ⟨f, heffect⟩ := h.effect_giveUp id
    exact ⟨f, [], heffect⟩
  | setClock t => exact ⟨_, _, .of_same h rfl rfl rfl rfl rfl⟩
  | fetch idle found => exact ⟨_, _, h.effect_fetch idle found⟩
  | call next free result models scripts =>
    refine ⟨_, _, .of_same h rfl ?_ rfl rfl rfl⟩
    rw [inHand, inHand, next, free]
    rfl
  | settle ended =>
    obtain ⟨f, heffect⟩ := h.effect_settle ended
    exact ⟨f, [], heffect⟩

/-- What a pass has in hand is in the log, and only a fetch adds to it. -/
theorem Sound.hand_step (h : w.Sound) (hstep : w.Step event w') :
    (w'.inHand.map Entry.id).Nodup ∧ ∀ e ∈ w'.inHand, ∃ x ∈ w.log, e.Same x := by
  cases hstep with
  | commit | giveUp | setClock => exact ⟨h.hand_nodup, h.hand_mem⟩
  | fetch idle found =>
    rename_i entries
    have hhand : inHand { w with waiting := entries } = entries := by
      rw [inHand, idle.current]
      rfl
    rw [hhand]
    obtain ⟨hmem, hnodup, -⟩ := h.of_findPending found
    exact ⟨hnodup, fun e he => ⟨e, (hmem e he).1, .refl e⟩⟩
  | call next free =>
    have hhand := h.hand_nodup
    have hmem := h.hand_mem
    rw [inHand, next, free] at hhand hmem
    exact ⟨hhand, hmem⟩
  | settle ended =>
    have hhand := h.hand_nodup
    have hmem := h.hand_mem
    rw [inHand, ended] at hhand hmem
    exact ⟨(List.nodup_cons.mp hhand).2, fun e he => hmem e (List.mem_cons_of_mem _ he)⟩

section

variable {f : Entry → Entry} {new : List Entry}

/-- What is in the log after a step is an entry from before, or new. -/
theorem Effect.mem_cases (h : Effect w event w' f new) (hx : x' ∈ w'.log) :
    (∃ x ∈ w.log, x' = f x) ∨ x' ∈ new := by
  rw [h.log, List.mem_append, List.mem_map] at hx
  rcases hx with ⟨x, hx, rfl⟩ | hx
  · exact .inl ⟨x, hx, rfl⟩
  · exact .inr hx

theorem Effect.mem (h : Effect w event w' f new) (hx : x ∈ w.log) : f x ∈ w'.log := by
  rw [h.log]
  exact List.mem_append_left _ (List.mem_map_of_mem hx)

theorem Effect.map_id (h : Effect w event w' f new) :
    w'.log.map Entry.id = w.log.map Entry.id ++ new.map Entry.id := by
  rw [h.log, List.map_append, List.map_map]
  congr 1
  exact List.map_congr_left fun x hx => (h.pays x hx).same.id

theorem Effect.nodup (h : Effect w event w' f new) (hw : w.Sound) :
    (w'.log.map Entry.id).Nodup := by
  rw [h.map_id]
  refine List.nodup_append.mpr ⟨hw.nodup, h.areNew.nodup, fun a ha b hb => ?_⟩
  obtain ⟨old, hold, rfl⟩ := List.mem_map.mp ha
  obtain ⟨e, he, rfl⟩ := List.mem_map.mp hb
  exact (h.areNew.fresh e he old hold).symm

theorem AreNew.consistent {log : Log} (h : AreNew log new) : ∀ e ∈ new, e.Consistent := by
  intro e he
  obtain ⟨policy, _, _, _, _, hretries, hnew⟩ := h.isNew e he
  exact hnew.consistent hretries

end

theorem Sound.step (h : w.Sound) (hstep : w.Step event w') : w'.Sound := by
  obtain ⟨f, new, heffect⟩ := h.effect hstep
  obtain ⟨hhand, hmem⟩ := h.hand_step hstep
  refine ⟨heffect.outage.trans h.outage, heffect.batch ▸ h.batch, heffect.nodup h, ?_, hhand, ?_⟩
  · intro x' hx'
    rcases heffect.mem_cases hx' with ⟨x, hx, rfl⟩ | hnew
    · exact (heffect.pays x hx).consistent
    · exact heffect.areNew.consistent x' hnew
  · intro e he
    obtain ⟨x, hx, hsame⟩ := hmem e he
    exact ⟨f x, heffect.mem hx, hsame.trans (heffect.pays x hx).same⟩

theorem Sound.run {events : List Event} (h : w.Sound) (hrun : Run w events w') : w'.Sound := by
  induction hrun with
  | nil => exact h
  | cons step _ ih => exact ih (h.step step)

end Dispatch

end TableService
