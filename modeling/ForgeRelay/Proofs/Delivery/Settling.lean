import ForgeRelay.Proofs.Delivery.Moves

/-!
# Operations as runs

Whatever is done with a timeline settles it: receives and listeners go on until nothing is left to
do without time passing.  So each operation is one move of its own and then inner moves, those that
receives, listeners and the clock make by themselves, and what holds after every run of moves holds
after all operations.

* `Timeline.comesTo_settle`    settling is a run of inner moves;
* `Timeline.comesTo_finish`    so is letting time pass until a receive is over;
* `Timeline.comesTo_send`, `Timeline.comesTo_receive`, ...
                               each operation is a move and then inner moves;
* `Timeline.History.eq_run`    operations in a row are a run, in which the moves that are not inner
                               are theirs.
-/

namespace ForgeRelay

namespace Timeline

/-- a move that a receive, a listener or the clock makes by itself -/
def Move.isInner : Move → Bool
  | .look _ => true
  | .letGo => true
  | .serve _ => true
  | .pass _ => true
  | _ => false

/-- what a timeline may come to by inner moves -/
def ComesTo (t t' : Timeline) : Prop :=
  ∃ ms : List Move, (∀ m ∈ ms, m.isInner = true) ∧ t.run ms = t'

theorem ComesTo.refl (t : Timeline) : t.ComesTo t := ⟨[], by simp, rfl⟩

theorem ComesTo.trans {t t' t'' : Timeline} : t.ComesTo t' → t'.ComesTo t'' → t.ComesTo t'' := by
  rintro ⟨ms, hms, rfl⟩ ⟨ns, hns, rfl⟩
  exact ⟨ms ++ ns, fun m hm => (List.mem_append.1 hm).elim (hms m) (hns m), run_append t ms ns⟩

theorem comesTo_move {m : Move} (t : Timeline) (h : m.isInner = true) : t.ComesTo (t.move m) :=
  ⟨[m], by simpa using h, rfl⟩

/-! ## receives -/

theorem isAwaited_append (ws : List Wait) (w : Wait) (channel : Nat) :
    isAwaited (ws ++ [w]) channel =
      (isAwaited ws channel || (w.isUnfinished && decide (w.channel = channel))) := by
  simp [isAwaited]

/-- a look at a channel, with the receives that are before it and behind it -/
theorem move_look_eq {t : Timeline} {before ws : List Wait} {w : Wait}
    (hw : t.waits = before ++ w :: ws) :
    t.move (.look before.length) =
      if !w.isUnfinished || isAwaited before w.channel then t
      else { t with
        broker := (attempt t.now w t.broker).2
        waits := before ++ (attempt t.now w t.broker).1 :: ws } := by
  have hget : t.waits[before.length]? = some w := by simp [hw]
  have htake : t.waits.take before.length = before := by simp [hw]
  have hset : ∀ w', t.waits.set before.length w' = before ++ w' :: ws := by simp [hw]
  unfold move
  simp only [hget, htake, hset]

theorem attempts_cons (now : Nat) (taken : List Nat) (w : Wait) (ws : List Wait) (b : Broker) :
    attempts now taken (w :: ws) b =
      if !w.isUnfinished || decide (w.channel ∈ taken) then
        (w :: (attempts now taken ws b).1, (attempts now taken ws b).2)
      else
        let a := attempt now w b
        let rest := attempts now (if a.1.isUnfinished then a.1.channel :: taken else taken) ws a.2
        (a.1 :: rest.1, rest.2) := rfl

/-- receives look in order, behind those that looked before -/
theorem comesTo_attempts {t : Timeline} {before ws : List Wait} (hw : t.waits = before ++ ws)
    {taken : List Nat} (ht : ∀ channel, channel ∈ taken ↔ isAwaited before channel = true) :
    t.ComesTo { t with
      waits := before ++ (attempts t.now taken ws t.broker).1
      broker := (attempts t.now taken ws t.broker).2 } := by
  induction ws generalizing t before taken with
  | nil =>
    show t.ComesTo { t with waits := before ++ [] }
    rw [← hw]
    exact .refl t
  | cons w ws ih =>
    have hskip : (!w.isUnfinished || decide (w.channel ∈ taken)) =
        (!w.isUnfinished || isAwaited before w.channel) := by
      rw [Bool.eq_iff_iff]
      simp [ht]
    have hlook := comesTo_move (m := .look before.length) t rfl
    rw [move_look_eq hw, ← hskip] at hlook
    rw [attempts_cons]
    split
    · rename_i h
      -- nothing is looked at, and no further channel is taken
      have ht' : ∀ channel, channel ∈ taken ↔ isAwaited (before ++ [w]) channel = true := by
        intro channel
        rw [isAwaited_append, Bool.or_eq_true, ← ht]
        refine ⟨.inl, fun hc => hc.elim id fun hc => ?_⟩
        simp only [Bool.and_eq_true, decide_eq_true_eq] at hc
        simpa [hc.1, hc.2] using h
      have hrest := @ih t (before ++ [w]) (hw.trans (List.append_cons ..)) taken ht'
      simpa using hrest
    · rename_i h
      rw [if_neg h] at hlook
      refine hlook.trans ?_
      let w' := (attempt t.now w t.broker).1
      let t' : Timeline :=
        { t with broker := (attempt t.now w t.broker).2, waits := before ++ w' :: ws }
      let taken' := if w'.isUnfinished then w'.channel :: taken else taken
      have ht' : ∀ channel, channel ∈ taken' ↔ isAwaited (before ++ [w']) channel = true := by
        intro channel
        rw [isAwaited_append, Bool.or_eq_true, ← ht]
        cases hu : w'.isUnfinished <;> simp [taken', hu, or_comm, eq_comm]
      have hrest := @ih t' (before ++ [w']) (List.append_cons before w' ws) taken' ht'
      simpa using hrest

/-! ## listeners -/

theorem comesTo_serve {t : Timeline} {before ps : List Post} (hp : t.posts = before ++ ps) :
    t.ComesTo { t with
      posts := before ++ (serve t.given ps t.broker).1
      broker := (serve t.given ps t.broker).2 } := by
  induction ps generalizing t before with
  | nil =>
    show t.ComesTo { t with posts := before ++ [] }
    rw [← hp]
    exact .refl t
  | cons p ps ih =>
    have hget : t.posts[before.length]? = some p := by simp [hp]
    have hset : ∀ q, t.posts.set before.length q = before ++ q :: ps := by simp [hp]
    have hsteps := run_serve hget (p.listener.pending t.broker + 3)
    rw [hset] at hsteps
    refine ComesTo.trans ⟨_, by simp [Move.isInner], hsteps⟩ ?_
    let a := p.listener.settle (isGiven t.given p.signal) t.broker
    let t' : Timeline := { t with broker := a.2, posts := before ++ ⟨p.signal, a.1⟩ :: ps }
    have hrest := @ih t' (before ++ [⟨p.signal, a.1⟩]) (List.append_cons before _ ps)
    rw [List.append_assoc] at hrest
    exact hrest

/-! ## settling -/

theorem comesTo_settle (t : Timeline) : t.ComesTo t.settle := by
  have hlooks := @comesTo_attempts t [] t.waits rfl [] (fun _ => by simp [isAwaited])
  refine (hlooks.trans (comesTo_move (m := .letGo) _ rfl)).trans ?_
  exact @comesTo_serve _ [] _ rfl

/-- time passes until the receive is over -/
theorem comesTo_finish (i : Nat) (t : Timeline) : t.ComesTo (t.finish i) := by
  have hwithin : ∀ (fuel : Nat) (t : Timeline), t.ComesTo (finishWithin i fuel t) := by
    intro fuel
    induction fuel with
    | zero => exact ComesTo.refl
    | succ fuel ih =>
      intro t
      rw [finishWithin]
      split
      · exact .refl t
      · split
        · exact .refl t
        · rename_i deadline _
          have hpass := comesTo_move (m := .pass (deadline - t.now)) t rfl
          exact (hpass.trans (comesTo_settle _)).trans (ih _)
  exact hwithin _ t

/-! ## operations -/

theorem comesTo_send (topic : String) (payload : Bytes) (t : Timeline) :
    (t.move (.send topic payload)).ComesTo (t.change fun b => b.send topic payload) :=
  comesTo_settle _

theorem comesTo_subscribe (source : Endpoint) (t : Timeline) :
    (t.move (.subscribe source)).ComesTo (t.change fun b => b.subscribe source) :=
  comesTo_settle _

theorem comesTo_closeTopic (topic : String) (t : Timeline) :
    (t.move (.closeTopic topic)).ComesTo (t.change fun b => b.closeTopic topic) :=
  comesTo_settle _

theorem comesTo_listen (topic : String) (signal : Signal) (handler : Handler) (t : Timeline) :
    (t.move (.listen topic signal fun _ => handler)).ComesTo (t.listen topic signal handler) :=
  comesTo_settle _

theorem comesTo_give (signal : Signal) (t : Timeline) :
    (t.move (.give signal)).ComesTo (t.give signal) :=
  comesTo_settle _

theorem comesTo_beginReceive (source : String) (t : Timeline) :
    (t.move (.beginReceive source)).ComesTo (t.beginReceive source) := by
  cases h : Keyed.lookup source t.broker.subscriptions with
  | none =>
    simp only [beginReceive, move, h]
    exact .refl _
  | some id =>
    simp only [beginReceive, move, h]
    exact comesTo_settle _

theorem comesTo_receive (source : String) (t : Timeline) :
    (t.move (.beginReceive source)).ComesTo (t.receive source).2 :=
  (comesTo_beginReceive source t).trans (comesTo_finish ..)

/-- what a timeline may come to by moves with inner moves after each of them -/
inductive History (t : Timeline) : List Move → Timeline → Prop
  | start : History t [] t
  | move {ms : List Move} {m : Move} {t' t'' : Timeline} :
      History t ms t' → (t'.move m).ComesTo t'' → History t (ms ++ [m]) t''

/-- operations in a row are a run; the moves in it that are not inner are their own -/
theorem History.eq_run {t t' : Timeline} {ms : List Move} (h : t.History ms t') :
    ∃ ns, t.run ns = t' ∧ ns.filter (!·.isInner) = ms.filter (!·.isInner) := by
  induction h with
  | start => exact ⟨[], rfl, rfl⟩
  | @move ms m _ _ _ hinner ih =>
    obtain ⟨ns, rfl, hns⟩ := ih
    obtain ⟨is, his, rfl⟩ := hinner
    refine ⟨ns ++ m :: is, run_append t ns (m :: is), ?_⟩
    have hnone : is.filter (!·.isInner) = [] := by
      rw [List.filter_eq_nil_iff]
      exact fun i hi => by simp [his i hi]
    rw [List.filter_append, List.filter_append, hns, List.filter_cons, List.filter_cons, hnone]
    rfl

end Timeline

end ForgeRelay
