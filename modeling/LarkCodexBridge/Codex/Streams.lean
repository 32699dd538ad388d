import LarkCodexBridge.Codex.Router

/-!
# What a subscriber is shown

Every subscription follows the log of its thread. While it is open it is registered at the route of its thread, and what
its reader has received, with what waits in its mailbox, is what was dispatched since it was registered (`Follows`). An
invalidated mailbox holds the marker behind a part of that, a closed one the end of the connection behind all of it.

* `Told`: this, for one subscription; `Streams`: for all of them;
* one lemma for each primitive of the router, and `step_streams` for every event;
* `streams_complete`: what a reader is shown in every run.
-/

namespace LarkCodexBridge.Codex

open Limits StepSystem

variable {W : Wire}

theorem ThreadRoute.subscribers_of_isIdle {route : ThreadRoute} (h : route.isIdle = true) : route.subscribers = [] := by
  simp only [ThreadRoute.isIdle, Bool.and_eq_true, List.isEmpty_iff] at h
  exact h.1.1.1.1.1.1.1.1.1.1

namespace Router

/-! ## Histories -/

/-- What a subscription was told when it was registered, and what was dispatched to its route since then. -/
def dispatched (s : Router) (sub : Subscription) : List AppServerEvent :=
  sub.primed ++ ((s.log.drop sub.since).filter (·.1 = sub.thread)).map (·.2)

/-- What the reader has received, and what waits for it. -/
def seen (sub : Subscription) : List AppServerEvent := sub.received ++ sub.mailbox.queued

/-- `events` ends with the marker of an invalidation, behind a part of `shown`, or with the end of the connection, behind
all of it. -/
def Ends (threadId : ThreadId) (shown events : List AppServerEvent) : Prop :=
  (∃ part reason, part <+: shown ∧ events = part ++ [.subscriptionInvalidated threadId reason]) ∨
    ∃ exit, events = shown ++ [.connectionClosed exit]

/-- `events` is a part of what was dispatched, as far as the subscription was served, or ends behind it. -/
def Shown (s : Router) (sub : Subscription) (events : List AppServerEvent) : Prop :=
  ∃ served shown, served <+: s.dispatched sub ∧ Follows served shown ∧
    (events <+: shown ∨ Ends sub.thread shown events)

/-- A subscriber is in the list of the route of a thread. -/
def Registered (s : Router) (threadId : ThreadId) (id : SubscriptionId) : Prop :=
  ∃ route, s.routes.lookup threadId = some route ∧ id ∈ route.subscribers

/-- One subscription, with its history. -/
structure Told (s : Router) (id : SubscriptionId) (sub : Subscription) : Prop where
  exact : sub.mailbox.Exact W.weights
  since : sub.since ≤ s.log.length
  primed : ∀ event ∈ sub.primed, event.ends = false
  dropped : sub.held = false → s.Shown sub sub.received
  isOpen : sub.held = true → sub.mailbox.closed = false →
    s.Registered sub.thread id ∧ Follows (s.dispatched sub) (seen sub) ∧ sub.ended = false
  isClosed : sub.held = true → sub.mailbox.closed = true →
    (∃ served shown, served <+: s.dispatched sub ∧ Follows served shown ∧ Ends sub.thread shown (seen sub)) ∧
      (sub.ended = true → sub.mailbox.events = [])

variable (W) in
/-- All subscriptions: the registered ones belong to the route, and are open as long as they are held. -/
structure Streams (s : Router) : Prop where
  own : ∀ threadId id, s.Registered threadId id →
    ∃ sub, s.subscriptions id = some sub ∧ sub.thread = threadId ∧ (sub.held = true → sub.mailbox.closed = false)
  told : ∀ id sub, s.subscriptions id = some sub → s.Told (W := W) id sub
  log : ∀ entry ∈ s.log, entry.2.ends = false

theorem streams_empty : Streams W .empty where
  own := by rintro t id ⟨route, h, -⟩; simp [empty] at h
  told := by intro id sub h; simp [empty] at h
  log := by simp [empty]

/-! ## Steps that dispatch nothing -/

/-- The log and the subscriptions stay, and the routes lose only subscribers that do not read any more. -/
structure Keeps (s s' : Router) : Prop where
  log : s'.log = s.log
  subscriptions : s'.subscriptions = s.subscriptions
  registered : ∀ threadId id, s'.Registered threadId id → s.Registered threadId id
  live : ∀ threadId id, s.live id = true → s.Registered threadId id → s'.Registered threadId id

theorem Keeps.refl (s : Router) : Keeps s s := ⟨rfl, rfl, fun _ _ h => h, fun _ _ _ h => h⟩

variable {s s' : Router}

theorem Keeps.trans {s'' : Router} (h : Keeps s s') (h' : Keeps s' s'') : Keeps s s'' where
  log := h'.log.trans h.log
  subscriptions := h'.subscriptions.trans h.subscriptions
  registered t id hr := h.registered t id (h'.registered t id hr)
  live t id hl hr := h'.live t id (by unfold Router.live; rw [h.subscriptions]; exact hl) (h.live t id hl hr)

theorem dispatched_congr (h : s'.log = s.log) (sub : Subscription) :
    s'.dispatched sub = s.dispatched sub := by
  unfold dispatched; rw [h]

theorem Streams.keeps (h : Streams W s) (hk : Keeps s s') : Streams W s' where
  own t id hr := by
    rw [hk.subscriptions]
    exact h.own t id (hk.registered t id hr)
  told id sub hsub := by
    rw [hk.subscriptions] at hsub
    obtain ⟨hexact, hsince, hprimed, hdropped, hopen, hclosed⟩ := h.told id sub hsub
    have hd : s'.dispatched sub = s.dispatched sub := dispatched_congr hk.log sub
    refine ⟨hexact, by rw [hk.log]; exact hsince, hprimed, ?_, ?_, ?_⟩
    · unfold Shown; rw [hd]; exact hdropped
    · intro hheld hc
      obtain ⟨hreg, hf, he⟩ := hopen hheld hc
      refine ⟨hk.live _ _ ?_ hreg, hd ▸ hf, he⟩
      simp [Router.live, hsub, Subscription.live, hheld, hc]
    · rw [hd]; exact hclosed
  log := by rw [hk.log]; exact h.log

variable {threadId victim : ThreadId} {route : ThreadRoute}

theorem keeps_setRoute {route' : ThreadRoute} (hl : s.routes.lookup threadId = some route)
    (he : route'.subscribers = route.subscribers) :
    Keeps s (s.setRoute threadId route') where
  log := rfl
  subscriptions := rfl
  registered t id := by
    rintro ⟨r, hr, hid⟩
    simp only [setRoute, KeyMap.lookup_insert_ite] at hr
    split at hr
    · next ht =>
      cases hr
      exact ⟨route, ht ▸ hl, he ▸ hid⟩
    · exact ⟨r, hr, hid⟩
  live t id _ := by
    rintro ⟨r, hr, hid⟩
    by_cases ht : t = threadId
    · subst ht
      rw [hl] at hr
      cases hr
      exact ⟨route', by simp [setRoute], he ▸ hid⟩
    · exact ⟨r, by simp [setRoute, ht, hr], hid⟩

theorem keeps_pruneSubscribers (s : Router) : Keeps s s.pruneSubscribers where
  log := rfl
  subscriptions := rfl
  registered t id := by
    rintro ⟨r, hr, hid⟩
    simp only [pruneSubscribers, KeyMap.lookup_mapValues, Option.map_eq_some_iff] at hr
    obtain ⟨route, hroute, rfl⟩ := hr
    exact ⟨route, hroute, List.mem_of_mem_filter hid⟩
  live t id hl := by
    rintro ⟨route, hroute, hid⟩
    exact ⟨{ route with subscribers := route.subscribers.filter s.live },
      by simp [pruneSubscribers, hroute], List.mem_filter.2 ⟨hid, hl⟩⟩

/-- A route without subscribers makes room for a new one. -/
theorem keeps_evict (hv : s.routes.lookup victim = some route) (he : route.subscribers = [])
    (hn : s.routes.lookup threadId = none) :
    Keeps s { s with routes := (s.routes.erase victim).insert threadId .new } where
  log := rfl
  subscriptions := rfl
  registered t id := by
    rintro ⟨r, hr, hid⟩
    simp only [KeyMap.lookup_insert_ite, KeyMap.lookup_erase_ite] at hr
    split at hr
    · cases hr; simp [ThreadRoute.new] at hid
    · split at hr
      · cases hr
      · exact ⟨r, hr, hid⟩
  live t id _ := by
    rintro ⟨r, hr, hid⟩
    refine ⟨r, ?_, hid⟩
    simp only [KeyMap.lookup_insert_ite, KeyMap.lookup_erase_ite]
    rw [if_neg (by rintro rfl; rw [hn] at hr; cases hr), if_neg]
    · exact hr
    · rintro rfl
      rw [hv] at hr
      cases hr
      simp [he] at hid

theorem keeps_insert_new (hn : s.routes.lookup threadId = none) :
    Keeps s (s.setRoute threadId .new) where
  log := rfl
  subscriptions := rfl
  registered t id := by
    rintro ⟨r, hr, hid⟩
    simp only [setRoute, KeyMap.lookup_insert_ite] at hr
    split at hr
    · cases hr; simp [ThreadRoute.new] at hid
    · exact ⟨r, hr, hid⟩
  live t id _ := by
    rintro ⟨r, hr, hid⟩
    refine ⟨r, ?_, hid⟩
    simp only [setRoute, KeyMap.lookup_insert_ite]
    rw [if_neg (by rintro rfl; rw [hn] at hr; cases hr)]
    exact hr

theorem evictable_eq_some (h : s.evictable = some victim) :
    ∃ route, s.routes.lookup victim = some route ∧ route.isIdle = true := by
  have := List.find?_some h
  simpa [Option.any_eq_true] using this

/-- **`route_for_update`** loses no reader, and gives the route it found or made. -/
theorem routeForUpdate_cases (s : Router) (threadId : ThreadId) {found : Option ThreadRoute}
    (h : s.routeForUpdate threadId = (s', found)) :
    Keeps s s' ∧ ∀ route, found = some route →
      s'.routes.lookup threadId = some route ∧ route.projection.invalidated = none := by
  have hp := keeps_pruneSubscribers s
  unfold routeForUpdate at h
  split at h
  · cases h; exact ⟨Keeps.refl _, by simp⟩
  · dsimp only at h
    split at h
    · next route hl =>
      split at h
      · cases h; exact ⟨hp, by simp⟩
      · next hi =>
        cases h
        refine ⟨hp, ?_⟩
        rintro r ⟨⟩
        exact ⟨hl, by simpa using hi⟩
    · next hn =>
      split at h
      · split at h
        · cases h; exact ⟨hp, by simp⟩
        · next victim hv =>
          cases h
          obtain ⟨route, hroute, hidle⟩ := evictable_eq_some hv
          refine ⟨hp.trans (keeps_evict hroute (ThreadRoute.subscribers_of_isIdle hidle) hn), ?_⟩
          rintro r ⟨⟩
          exact ⟨by simp, rfl⟩
      · cases h
        refine ⟨hp.trans (keeps_insert_new hn), ?_⟩
        rintro r ⟨⟩
        exact ⟨by simp [setRoute], rfl⟩

/-! ## Steps that dispatch -/

theorem map_filter_tagged (threadId t : ThreadId) (events : List AppServerEvent) :
    (((events.map fun event => (threadId, event)).filter (·.1 = t)).map (·.2)) = if t = threadId then events else [] := by
  induction events with
  | nil => simp
  | cons event rest ih =>
    by_cases ht : t = threadId
    · subst ht
      simpa using ih
    · simp [Ne.symm ht, ht]

variable {events : List AppServerEvent} {sub : Subscription} {alive keep : List SubscriptionId}
  {f : Subscription → Subscription}

/-- The log grows by events of one thread. -/
theorem dispatched_append (hlog : s'.log = s.log ++ events.map fun event => (threadId, event))
    (hs : sub.since ≤ s.log.length) :
    s'.dispatched sub = s.dispatched sub ++ if sub.thread = threadId then events else [] := by
  unfold dispatched
  rw [hlog, List.drop_append_of_le_length hs, List.filter_append, List.map_append, map_filter_tagged, List.append_assoc]

theorem Shown.mono (h : s.dispatched sub <+: s'.dispatched sub) (hs : s.Shown sub events) : s'.Shown sub events := by
  obtain ⟨served, shown, hserved, hf, he⟩ := hs
  exact ⟨served, shown, hserved.trans h, hf, he⟩

/-- A change of the subscribers of one route: `alive` are served by `f`, `keep` stay. -/
structure Serves (s s' : Router) (threadId : ThreadId) (events : List AppServerEvent) (alive keep : List SubscriptionId)
    (f : Subscription → Subscription) : Prop where
  log : s'.log = s.log ++ events.map fun event => (threadId, event)
  routes : ∃ route, route.subscribers = keep ∧ s'.routes = s.routes.insert threadId route
  subscriptions : ∀ id, s'.subscriptions id = if id ∈ alive then (s.subscriptions id).map f else s.subscriptions id
  registered : ∀ id ∈ alive, s.Registered threadId id
  live : ∀ id, s.Registered threadId id → s.live id = true → id ∈ alive
  keep : ∀ id ∈ keep, id ∈ alive
  same : ∀ sub, (f sub).thread = sub.thread ∧ (f sub).since = sub.since ∧ (f sub).held = sub.held
  plain : ∀ event ∈ events, event.ends = false

theorem Serves.registered_of_ne {t : ThreadId} (h : Serves s s' threadId events alive keep f) (ht : t ≠ threadId)
    (id : SubscriptionId) :
    s'.Registered t id ↔ s.Registered t id := by
  obtain ⟨route, -, hroutes⟩ := h.routes
  unfold Registered
  rw [hroutes, AList.lookup_insert_ne ht]

theorem Serves.registered_self (h : Serves s s' threadId events alive keep f) (id : SubscriptionId) :
    s'.Registered threadId id ↔ id ∈ keep := by
  obtain ⟨route, hkeep, hroutes⟩ := h.routes
  unfold Registered
  rw [hroutes, AList.lookup_insert]
  simp [hkeep]

/-- **Serving one route** keeps all histories, if it keeps those of the served ones. -/
theorem Streams.serves (h : Streams W s) (hs : Serves s s' threadId events alive keep f)
    (hopen : ∀ id ∈ keep, ∀ sub, s.subscriptions id = some sub → sub.held = true → (f sub).mailbox.closed = false)
    (htold : ∀ id ∈ alive, ∀ sub, s.subscriptions id = some sub → sub.thread = threadId →
      (sub.held = true → sub.mailbox.closed = false) → s.Told (W := W) id sub → s'.Told (W := W) id (f sub)) :
    Streams W s' where
  own t id hr := by
    rw [hs.subscriptions]
    by_cases ht : t = threadId
    · subst ht
      have hkeep := (hs.registered_self id).1 hr
      have halive := hs.keep id hkeep
      obtain ⟨sub, hsub, hthread, -⟩ := h.own t id (hs.registered id halive)
      refine ⟨f sub, by simp [halive, hsub], (hs.same sub).1.trans hthread, fun hheld => ?_⟩
      exact hopen id hkeep sub hsub ((hs.same sub).2.2 ▸ hheld)
    · have hr' := (hs.registered_of_ne ht id).1 hr
      obtain ⟨sub, hsub, hthread, hc⟩ := h.own t id hr'
      rw [if_neg]
      · exact ⟨sub, hsub, hthread, hc⟩
      · intro halive
        obtain ⟨sub', hsub', hthread', -⟩ := h.own threadId id (hs.registered id halive)
        rw [hsub] at hsub'
        cases hsub'
        exact ht (hthread.symm.trans hthread')
  told id sub hsub := by
    rw [hs.subscriptions] at hsub
    split at hsub
    · next halive =>
      obtain ⟨sub₀, hsub₀, rfl⟩ := Option.map_eq_some_iff.1 hsub
      obtain ⟨sub', hsub', hthread, hc⟩ := h.own threadId id (hs.registered id halive)
      rw [hsub₀] at hsub'
      cases hsub'
      exact htold id halive sub₀ hsub₀ hthread hc (h.told id sub₀ hsub₀)
    · next halive =>
      obtain ⟨hexact, hsince, hprimed, hdropped, hopen', hclosed⟩ := h.told id sub hsub
      have hd := dispatched_append hs.log hsince
      have hprefix : s.dispatched sub <+: s'.dispatched sub := ⟨_, hd.symm⟩
      refine ⟨hexact, ?_, hprimed, fun hheld => (hdropped hheld).mono hprefix, ?_, ?_⟩
      · rw [hs.log, List.length_append]; omega
      · intro hheld hc
        obtain ⟨hreg, hf, hended⟩ := hopen' hheld hc
        have hne : sub.thread ≠ threadId := by
          intro ht
          refine halive (hs.live id (ht ▸ hreg) ?_)
          simp [Router.live, hsub, Subscription.live, hheld, hc]
        refine ⟨(hs.registered_of_ne hne id).2 hreg, ?_, hended⟩
        rw [hd, if_neg hne, List.append_nil]
        exact hf
      · intro hheld hc
        obtain ⟨⟨served, shown, hserved, hf, he⟩, hended⟩ := hclosed hheld hc
        exact ⟨⟨served, shown, hserved.trans hprefix, hf, he⟩, hended⟩
  log := by
    intro entry he
    rw [hs.log] at he
    rcases List.mem_append.1 he with he | he
    · exact h.log entry he
    · obtain ⟨event, hevent, rfl⟩ := List.mem_map.1 he
      exact hs.plain event hevent

variable {id : SubscriptionId}

/-- The marker of an invalidation takes the place of what waits. -/
theorem told_invalidate (reason : SubscriptionInvalidation)
    (hlog : s'.log = s.log ++ events.map fun event => (threadId, event)) (hthread : sub.thread = threadId)
    (hheld : sub.held = true) (hc : sub.mailbox.closed = false) (h : s.Told (W := W) id sub) :
    s'.Told (W := W) id { sub with mailbox := Mailbox.invalidate W.weights threadId reason } where
  exact := Mailbox.exact_invalidate threadId reason
  since := by rw [hlog, List.length_append]; exact Nat.le_add_right_of_le h.since
  primed := h.primed
  dropped hd := by rw [hheld] at hd; cases hd
  isOpen _ ho := by cases ho
  isClosed _ _ := by
    obtain ⟨-, hf, hended⟩ := h.isOpen hheld hc
    have hd := dispatched_append hlog h.since
    refine ⟨⟨s.dispatched sub, seen sub, ⟨_, hd.symm⟩, hf, Or.inl ⟨sub.received, reason, ⟨_, rfl⟩, ?_⟩⟩, ?_⟩
    · simp [seen, Mailbox.queued, Mailbox.invalidate, hthread]
    · intro he; rw [hended] at he; cases he

theorem mem_alive (h : id ∈ route.subscribers.filter s.live) (hsub : s.subscriptions id = some sub) :
    sub.held = true ∧ sub.mailbox.closed = false := by
  have := (List.mem_filter.1 h).2
  simpa [Router.live, hsub, Subscription.live] using this

variable {event : AppServerEvent} {r : Router × Bool} {mailbox : Mailbox}

theorem serves_dispatchToRoute (hl : s.routes.lookup threadId = some route) (hm : event.ends = false) :
    Serves s (s.dispatchToRoute W threadId event) threadId [event] (route.subscribers.filter s.live)
      (route.subscribers.filter s.live) fun sub => { sub with mailbox := sub.mailbox.pushLossy W.weights event } where
  log := by simp [dispatchToRoute, hl, setRoute, onSubscribers]
  routes := ⟨{ route with subscribers := route.subscribers.filter s.live }, rfl, by
    simp [dispatchToRoute, hl, setRoute, onSubscribers]⟩
  subscriptions id := by simp [dispatchToRoute, hl, setRoute, onSubscribers]
  registered id hid := ⟨route, hl, List.mem_of_mem_filter hid⟩
  live id := by
    rintro ⟨r, hr, hid⟩ hlive
    rw [hl] at hr
    cases hr
    exact List.mem_filter.2 ⟨hid, hlive⟩
  keep id hid := hid
  same sub := ⟨rfl, rfl, rfl⟩
  plain := by simpa using hm

/-- **`dispatch_to_route`** of an event that may be lost. -/
theorem Streams.dispatchToRoute (h : Streams W s) (threadId : ThreadId) (he : event.authoritative = false)
    (hm : event.ends = false) : Streams W (s.dispatchToRoute W threadId event) := by
  cases hl : s.routes.lookup threadId with
  | none => simpa [Router.dispatchToRoute, hl] using h
  | some route =>
    have hs := serves_dispatchToRoute (W := W) hl hm
    refine h.serves hs ?_ ?_
    · intro id hid sub hsub _
      exact (Mailbox.pushLossy_closed _ _).trans (mem_alive hid hsub).2
    · intro id hid sub hsub hthread _ ht
      obtain ⟨hheld, hc⟩ := mem_alive hid hsub
      obtain ⟨-, hf, hended⟩ := ht.isOpen hheld hc
      refine ⟨ht.exact.pushLossy event, ?_, ht.primed, ?_, ?_, ?_⟩
      · rw [hs.log, List.length_append]; exact Nat.le_add_right_of_le ht.since
      · intro hd; rw [show sub.held = false from hd] at hheld; cases hheld
      · intro _ _
        refine ⟨hthread ▸ (hs.registered_self id).2 hid, ?_, hended⟩
        have hd := dispatched_append hs.log ht.since
        rw [if_pos hthread] at hd
        exact (show _ = _ from hd) ▸ Mailbox.follows_pushLossy he hf
      · intro _ hc'
        rw [show _ = _ from Mailbox.pushLossy_closed sub.mailbox event, hc] at hc'
        cases hc'

theorem serves_dispatchTerminalToRoute (hl : s.routes.lookup threadId = some route) (hm : event.ends = false) :
    Serves s (s.dispatchTerminalToRoute W threadId event) threadId [event] (route.subscribers.filter s.live)
      ((route.subscribers.filter s.live).filter (s.takes W event)) (pushOrInvalidate W threadId event) where
  log := by simp [dispatchTerminalToRoute, hl]
  routes := ⟨{ route with subscribers := (route.subscribers.filter s.live).filter (s.takes W event) }, rfl, by
    simp [dispatchTerminalToRoute, hl, setRoute, onSubscribers]⟩
  subscriptions id := by simp [dispatchTerminalToRoute, hl, setRoute, onSubscribers]
  registered id hid := ⟨route, hl, List.mem_of_mem_filter hid⟩
  live id := by
    rintro ⟨r, hr, hid⟩ hlive
    rw [hl] at hr
    cases hr
    exact List.mem_filter.2 ⟨hid, hlive⟩
  keep id hid := List.mem_of_mem_filter hid
  same sub := by unfold pushOrInvalidate; split <;> exact ⟨rfl, rfl, rfl⟩
  plain := by simpa using hm

/-- **`dispatch_terminal_to_route`**: every subscriber has the event, or the marker. -/
theorem Streams.dispatchTerminalToRoute (h : Streams W s) (threadId : ThreadId) (hm : event.ends = false) :
    Streams W (s.dispatchTerminalToRoute W threadId event) := by
  cases hl : s.routes.lookup threadId with
  | none => simpa [Router.dispatchTerminalToRoute, hl] using h
  | some route =>
    have hs := serves_dispatchTerminalToRoute (W := W) hl hm
    refine h.serves hs ?_ ?_
    · intro id hid sub hsub _
      obtain ⟨hid', htakes⟩ := List.mem_filter.1 hid
      have hc := (mem_alive hid' hsub).2
      simp only [takes, hsub, Option.any_some] at htakes
      rcases sub.mailbox.pushTerminal_cases W.weights event with hp | ⟨-, -, -, hp⟩
      · rw [hp] at htakes; cases htakes
      · simp only [pushOrInvalidate, hp]; exact hc
    · intro id hid sub hsub hthread _ ht
      obtain ⟨hheld, hc⟩ := mem_alive hid hsub
      obtain ⟨-, hf, hended⟩ := ht.isOpen hheld hc
      rcases sub.mailbox.pushTerminal_cases W.weights event with hp | ⟨-, -, -, hp⟩
      · have hfs : pushOrInvalidate W threadId event sub =
            { sub with mailbox := Mailbox.invalidate W.weights threadId .lagged } := by simp only [pushOrInvalidate, hp]
        rw [hfs]
        exact told_invalidate .lagged hs.log hthread hheld hc ht
      · have hkeep : id ∈ (route.subscribers.filter s.live).filter (s.takes W event) :=
          List.mem_filter.2 ⟨hid, by simp [takes, hsub, hp]⟩
        have hfs : pushOrInvalidate W threadId event sub =
            { sub with mailbox := (sub.mailbox.pushTerminal W.weights event).1 } := by
          simp only [pushOrInvalidate, hp]
        rw [hfs]
        refine ⟨ht.exact.pushTerminal event, ?_, ht.primed, ?_, ?_, ?_⟩
        · rw [hs.log, List.length_append]; exact Nat.le_add_right_of_le ht.since
        · intro hd; rw [show sub.held = false from hd] at hheld; cases hheld
        · intro _ _
          refine ⟨hthread ▸ (hs.registered_self id).2 hkeep, ?_, hended⟩
          have hd := dispatched_append hs.log ht.since
          rw [if_pos hthread] at hd
          exact (show _ = _ from hd) ▸ Mailbox.follows_pushTerminal (by rw [hp]) hf
        · intro _ hc'
          simp only [hp] at hc'
          rw [hc] at hc'
          cases hc'

theorem serves_invalidateRoute (hl : s.routes.lookup threadId = some route) (reason : SubscriptionInvalidation) :
    Serves s (s.invalidateRoute W threadId reason) threadId []
      (route.subscribers.filter fun id => (s.subscriptions id).any (·.held)) []
      fun sub => { sub with mailbox := Mailbox.invalidate W.weights threadId reason } where
  log := by simp [invalidateRoute, hl, setRoute, onSubscribers]
  routes := by
    simp only [invalidateRoute, hl, setRoute, onSubscribers]
    exact ⟨_, rfl, rfl⟩
  subscriptions id := by simp [invalidateRoute, hl, setRoute, onSubscribers]
  registered id hid := ⟨route, hl, List.mem_of_mem_filter hid⟩
  live id := by
    rintro ⟨r, hr, hid⟩ hlive
    rw [hl] at hr
    cases hr
    refine List.mem_filter.2 ⟨hid, ?_⟩
    cases hsub : s.subscriptions id with
    | none => simp [Router.live, hsub] at hlive
    | some sub =>
      simp only [Router.live, hsub, Option.any_some, Subscription.live, Bool.and_eq_true] at hlive
      simpa using hlive.1
  keep id hid := by cases hid
  same sub := ⟨rfl, rfl, rfl⟩
  plain := by simp

/-- **`invalidate_route`** leaves the marker in every mailbox of the route. -/
theorem Streams.invalidateRoute (h : Streams W s) (threadId : ThreadId) (reason : SubscriptionInvalidation) :
    Streams W (s.invalidateRoute W threadId reason) := by
  cases hl : s.routes.lookup threadId with
  | none => simpa [Router.invalidateRoute, hl] using h
  | some route =>
    have hs := serves_invalidateRoute (W := W) hl reason
    refine h.serves hs (fun id hid => by cases hid) ?_
    intro id hid sub hsub hthread hc ht
    have hheld : sub.held = true := by simpa [hsub] using (List.mem_filter.1 hid).2
    exact told_invalidate reason hs.log hthread hheld (hc hheld) ht

theorem registered_iff_mem_entries :
    id ∈ (s.routes.entries.flatMap fun entry => entry.2.subscribers) ↔ ∃ threadId, s.Registered threadId id := by
  simp only [List.mem_flatMap, Registered]
  constructor
  · rintro ⟨⟨t, route⟩, he, hid⟩
    exact ⟨t, route, AList.mem_lookup_iff.2 he, hid⟩
  · rintro ⟨t, route, hl, hid⟩
    exact ⟨⟨t, route⟩, AList.mem_lookup_iff.1 hl, hid⟩

section

variable (h : Streams W s)
include h

/-- **`close_subscribers`** puts the end of the connection, or the marker, into every mailbox. -/
theorem Streams.closeSubscribers (exit : TransportExit) :
    Streams W (s.closeSubscribers W exit) where
  own t id := by
    rintro ⟨route, hl, -⟩
    simp [Router.closeSubscribers] at hl
  told id sub hsub := by
    have hd (sub : Subscription) : (s.closeSubscribers W exit).dispatched sub = s.dispatched sub := rfl
    simp only [Router.closeSubscribers, onSubscribers] at hsub
    split at hsub
    · next hid =>
      obtain ⟨sub₀, hsub₀, rfl⟩ := Option.map_eq_some_iff.1 hsub
      obtain ⟨hmem, hheld⟩ := List.mem_filter.1 hid
      have hheld : sub₀.held = true := by simpa [hsub₀] using hheld
      obtain ⟨t, hreg⟩ := registered_iff_mem_entries.1 hmem
      obtain ⟨sub', hsub', -, hc⟩ := h.own t id hreg
      rw [hsub₀] at hsub'
      cases hsub'
      have ht := h.told id sub₀ hsub₀
      have hc := hc hheld
      rcases sub₀.mailbox.pushTerminal_cases W.weights (.connectionClosed exit) with hp | ⟨-, -, -, hp⟩
      · have hfs : closeWith W exit sub₀ =
            { sub₀ with mailbox := Mailbox.invalidate W.weights sub₀.thread .lagged } := by simp only [closeWith, hp]
        rw [hfs]
        have hlog : (s.closeSubscribers W exit).log =
            s.log ++ ([] : List AppServerEvent).map fun event => (sub₀.thread, event) := by
          simp [Router.closeSubscribers, onSubscribers]
        exact told_invalidate .lagged hlog rfl hheld hc ht
      · have hfs : closeWith W exit sub₀ =
            { sub₀ with mailbox := (sub₀.mailbox.pushTerminal W.weights (.connectionClosed exit)).1.close } := by
          simp only [closeWith, hp]
        rw [hfs]
        obtain ⟨-, hf, hended⟩ := ht.isOpen hheld hc
        refine ⟨(ht.exact.pushTerminal _).close, ht.since, ht.primed, ?_, ?_, ?_⟩
        · intro hh; rw [show sub₀.held = false from hh] at hheld; cases hheld
        · intro _ ho; cases ho
        · intro _ _
          refine ⟨⟨s.dispatched sub₀, seen sub₀, List.prefix_rfl, hf, Or.inr ⟨exit, ?_⟩⟩, ?_⟩
          · simp [seen, Mailbox.queued, Mailbox.close, hp]
          · intro he; rw [show sub₀.ended = true from he] at hended; cases hended
    · next hid =>
      obtain ⟨hexact, hsince, hprimed, hdropped, hopen, hclosed⟩ := h.told id sub hsub
      refine ⟨hexact, hsince, hprimed, hdropped, ?_, hclosed⟩
      intro hheld hc
      obtain ⟨hreg, -, -⟩ := hopen hheld hc
      refine absurd (List.mem_filter.2 ⟨registered_iff_mem_entries.2 ⟨_, hreg⟩, ?_⟩) hid
      simp [hsub, hheld]
  log := h.log

/-! ## Updates of a route -/

/-- A route is looked up for an update, and the update is stored. -/
theorem Streams.routeForUpdate (threadId : ThreadId) :
    ∃ s' found, s.routeForUpdate threadId = (s', found) ∧ Streams W s' ∧
      ∀ route, found = some route → ∀ projection, Streams W (s'.setProjection threadId route projection) := by
  obtain ⟨hk, hr⟩ := routeForUpdate_cases s threadId rfl
  exact ⟨_, _, rfl, h.keeps hk, fun route hf _ => (h.keeps hk).keeps (keeps_setRoute (hr route hf).1 rfl)⟩

theorem Streams.routeThreadStarted (threadId : ThreadId) :
    Streams W (s.routeThreadStarted W threadId).1 := by
  unfold Router.routeThreadStarted
  obtain ⟨s', _ | route, hf, hs, hp⟩ := h.routeForUpdate threadId <;> rw [hf]
  · exact hs
  · dsimp only
    split
    · exact hs
    · exact (hp route rfl _).dispatchTerminalToRoute _ rfl

theorem Streams.routeTurnStarted (threadId : ThreadId) (turn : Turn) :
    Streams W (s.routeTurnStarted W threadId turn).1 := by
  unfold Router.routeTurnStarted
  obtain ⟨s', _ | route, hf, hs, hp⟩ := h.routeForUpdate threadId <;> rw [hf]
  · exact hs
  · dsimp only
    split
    · exact hs.invalidateRoute _ _
    · split
      · exact hs
      · dsimp only
        split
        · exact hp route rfl _
        · exact (hp route rfl _).dispatchTerminalToRoute _ rfl

theorem Streams.routeItemStarted (threadId : ThreadId) (turnId : TurnId) (item : ThreadItem) :
    Streams W (s.routeItemStarted W threadId turnId item) := by
  unfold Router.routeItemStarted
  obtain ⟨s', _ | route, hf, hs, hp⟩ := h.routeForUpdate threadId <;> rw [hf]
  · exact hs
  · dsimp only
    split
    · exact hs.dispatchToRoute _ rfl rfl
    · split
      · exact hs.invalidateRoute _ _
      · split
        · exact hp route rfl _
        · exact (hp route rfl _).dispatchToRoute _ rfl rfl

theorem Streams.routeItemCompleted (threadId : ThreadId) (turnId : TurnId) (item : ThreadItem) :
    Streams W (s.routeItemCompleted W threadId turnId item).1 := by
  unfold Router.routeItemCompleted
  obtain ⟨s', _ | route, hf, hs, hp⟩ := h.routeForUpdate threadId <;> rw [hf]
  · exact hs
  · dsimp only
    split
    · exact hs
    · split
      · exact hs.invalidateRoute _ _
      · split
        · exact (hp route rfl _).invalidateRoute _ _
        · split
          · exact (hp route rfl _).dispatchTerminalToRoute _ rfl
          · exact hp route rfl _

theorem Streams.routeUsage (threadId : ThreadId) (turnId : TurnId) (usage : Value) :
    Streams W (s.routeUsage W threadId turnId usage) := by
  unfold Router.routeUsage
  obtain ⟨s', _ | route, hf, hs, hp⟩ := h.routeForUpdate threadId <;> rw [hf]
  · exact hs
  · dsimp only
    split
    · exact hs.invalidateRoute _ _
    · split
      · exact hs.dispatchToRoute _ rfl rfl
      · split
        · exact hs.invalidateRoute _ _
        · exact (hp route rfl _).dispatchToRoute _ rfl rfl

theorem Streams.routeError (threadId : ThreadId) (turnId : TurnId) (error : TurnError)
    (willRetry : Bool) : Streams W (s.routeError W threadId turnId error willRetry).1 := by
  unfold Router.routeError
  obtain ⟨s', _ | route, hf, hs, hp⟩ := h.routeForUpdate threadId <;> rw [hf]
  · exact hs
  · dsimp only
    split
    · exact hs.invalidateRoute _ _
    · exact hs.dispatchTerminalToRoute _ rfl

theorem Streams.routeTurnCompleted (threadId : ThreadId) (turn : Turn) :
    Streams W (s.routeTurnCompleted W threadId turn).1 := by
  unfold Router.routeTurnCompleted
  obtain ⟨s', _ | route, hf, hs, hp⟩ := h.routeForUpdate threadId <;> rw [hf]
  · exact hs
  · dsimp only
    split
    · exact hs.invalidateRoute _ _
    · split
      · dsimp only
        split
        · exact hs
        · exact hs.invalidateRoute _ _
      · split
        · exact hs.invalidateRoute _ _
        · exact (hp route rfl _).dispatchTerminalToRoute _ rfl

/-! ## Notifications -/

end

theorem keeps_report (s : Router) (event : ControlEvent) : Keeps s (s.report event) :=
  ⟨rfl, rfl, fun _ _ h => h, fun _ _ _ h => h⟩

theorem Streams.orReport (h : Streams W r.1) : Streams W (orReport r).1 := by
  obtain ⟨s, keepOpen⟩ := r
  cases keepOpen
  · exact h.keeps (keeps_report _ _)
  · exact h

theorem Streams.reportInvalidNotification (h : Streams W s) (method : String) (authoritative : Bool)
    (threadId : Option ThreadId) : Streams W (s.reportInvalidNotification W method authoritative threadId) := by
  unfold Router.reportInvalidNotification
  dsimp only
  refine Streams.keeps ?_ (keeps_report _ _)
  split
  · exact h.invalidateRoute _ _
  · exact h

theorem Streams.routeDelta (h : Streams W s) (n : Notification) {event : TurnId → String → String → AppServerEvent}
    (he : ∀ t i d, (event t i d).authoritative = false ∧ (event t i d).ends = false)
    (decoded : Option (ThreadId × TurnId × String × String)) : Streams W (s.routeDelta W n event decoded).1 := by
  unfold Router.routeDelta
  split
  · split
    · exact h.dispatchToRoute _ (he _ _ _).1 (he _ _ _).2
    · next threadId _ _ _ _ => exact h.reportInvalidNotification n.method false (some threadId)
  · exact h.reportInvalidNotification n.method false (rawThreadId W n)

theorem Streams.deferNotification (h : Streams W s) {n : Notification} (hd : s.deferNotification W n = some r) :
    Streams W r.1 := by
  unfold Router.deferNotification at hd
  split at hd
  · cases hd
  · split at hd
    · cases hd
    · split at hd
      · cases hd
      · next route hl =>
        split at hd
        · cases hd
        · split at hd
          · cases hd
            exact (h.invalidateRoute _ _).keeps (keeps_report _ _)
          · cases hd
            exact h.keeps (keeps_setRoute hl rfl)

/-- One notification, given what happens behind a `turn/started`. -/
theorem Streams.routeMethod {afterStart : Router → ThreadId → Router × Bool}
    (ha : ∀ s threadId, Streams W s → Streams W (afterStart s threadId).1) (h : Streams W s) (n : Notification) :
    Streams W (s.routeMethod W afterStart n).1 := by
  unfold Router.routeMethod
  dsimp only
  split
  · split
    · exact h.routeThreadStarted _
    · exact h.reportInvalidNotification n.method false (rawThreadId W n)
  · split
    · exact ha _ _ (h.routeTurnStarted _ _)
    · exact h.reportInvalidNotification n.method false (rawThreadId W n)
  · split
    · exact h.routeItemStarted _ _ _
    · exact h.reportInvalidNotification n.method false (rawThreadId W n)
  · exact h.routeDelta _ (fun _ _ _ => ⟨rfl, rfl⟩) _
  · exact h.routeDelta _ (fun _ _ _ => ⟨rfl, rfl⟩) _
  · split
    · exact (h.routeItemCompleted _ _ _).orReport
    · exact h.reportInvalidNotification n.method true (rawThreadId W n)
  · split
    · exact h.routeUsage _ _ _
    · exact h.reportInvalidNotification n.method false (rawThreadId W n)
  · split
    · exact (h.routeError _ _ _ _).orReport
    · exact h.reportInvalidNotification n.method true (rawThreadId W n)
  · split
    · exact (h.routeTurnCompleted _ _).orReport
    · exact h.reportInvalidNotification n.method true (rawThreadId W n)
  · split
    · exact h.dispatchToRoute _ rfl rfl
    · exact h.keeps (keeps_report _ _)

theorem Streams.routeDeferred (h : Streams W s) (n : Notification) :
    Streams W (s.routeDeferred W n).1 := by
  unfold Router.routeDeferred
  split
  · next r hd => exact h.deferNotification hd
  · exact Streams.routeMethod (fun _ _ h => h) h n

theorem Streams.replay : ∀ (ns : List Notification) {s : Router}, Streams W s →
    Streams W (Router.replay (Router.routeDeferred W) s ns).1
  | [], _, h => h
  | n :: rest, s, h => by
    have hn := h.routeDeferred n
    unfold Router.replay
    cases hr : s.routeDeferred W n with
    | mk s' keepOpen =>
      rw [hr] at hn
      cases keepOpen
      · exact hn
      · exact Streams.replay rest hn

theorem Streams.stopDeferring (h : Streams W s) (threadId : ThreadId) :
    Streams W (Router.stopDeferring (Router.routeDeferred W) s threadId).1 := by
  unfold Router.stopDeferring
  cases hl : s.routes.lookup threadId with
  | none => exact h
  | some route => exact Streams.replay _ (h.keeps (keeps_setRoute hl rfl))

/-- **One notification.** -/
theorem Streams.routeNotification (h : Streams W s) (n : Notification) :
    Streams W (s.routeNotification W n).1 := by
  unfold Router.routeNotification
  split
  · next r hd => exact h.deferNotification hd
  · exact Streams.routeMethod (fun _ t h => h.stopDeferring t) h n

theorem Streams.finishTurnStart (h : Streams W s) (threadId : ThreadId) (attempt : TurnStartAttemptId) :
    Streams W (s.finishTurnStart W threadId attempt).1 := by
  unfold Router.finishTurnStart
  cases hl : s.routes.lookup threadId with
  | none => exact h
  | some route =>
    dsimp only
    split
    · exact h
    · have hk : Keeps s (s.setRoute threadId { route with pendingTurnStart := none }) := keeps_setRoute hl rfl
      exact (h.keeps hk).stopDeferring threadId

/-! ## Commands -/

theorem routeForUpdate_valid (h : s.routeForUpdate threadId = (s', some route)) : validRoutingId threadId = true := by
  by_contra hv
  have hv' : validRoutingId threadId = false := by simpa using hv
  simp [routeForUpdate, hv'] at h

/-- The announcement of a thread fits a new mailbox. -/
theorem pushTerminal_new (hv : validRoutingId threadId = true) :
    ∃ m, Mailbox.new.pushTerminal W.weights (.threadStarted threadId) = (m, true) ∧ m.closed = false ∧
      m.queued = [.threadStarted threadId] := by
  simp only [validRoutingId, decide_eq_true_eq] at hv
  have hw : eventMemoryWeight W.weights (.threadStarted threadId) ≤ threadMailboxByteBudget := by
    have : routingIdByteLimit + 128 ≤ threadMailboxByteBudget := by decide
    simp only [eventMemoryWeight]
    omega
  have hc : ¬ (0 ≥ threadTerminalCapacity) := by decide
  simp [Mailbox.pushTerminal, Mailbox.new, hc, Nat.not_lt.2 hw, Mailbox.queued]

theorem told_new (hv : validRoutingId threadId = true) (hlog : s'.log = s.log) (hreg : s'.Registered threadId id)
    (threadStarted : Bool) :
    s'.Told (W := W) id (s.newSubscription W threadId threadStarted) := by
  obtain ⟨m, hm, hc, hq⟩ := pushTerminal_new (W := W) hv
  cases threadStarted
  · have hd : s'.dispatched (s.newSubscription W threadId false) = [] := by
      simp [dispatched, newSubscription, hlog]
    refine ⟨Mailbox.exact_new, by simp [newSubscription, hlog], by simp [newSubscription], by simp [newSubscription],
      fun _ _ => ?_, ?_⟩
    · rw [hd]
      exact ⟨hreg, Follows.nil, rfl⟩
    · simp [newSubscription, Mailbox.new]
  · have hd : s'.dispatched (s.newSubscription W threadId true) = [.threadStarted threadId] := by
      simp [dispatched, newSubscription, hlog]
    have hexact := (Mailbox.exact_new (W := W.weights)).pushTerminal (.threadStarted threadId)
    refine ⟨?_, by simp [newSubscription, hlog], by simp [newSubscription, AppServerEvent.ends],
      by simp [newSubscription], fun _ _ => ?_, ?_⟩
    · simpa [newSubscription] using hexact
    · rw [hd]
      refine ⟨hreg, ?_, rfl⟩
      simpa [seen, newSubscription, hm, hq] using Follows.nil.keep (.threadStarted threadId)
    · simp [newSubscription, hm, hc]

/-- **A new subscription.** -/
theorem Streams.subscribe (h : Streams W s) (hn : s.subscriptions id = none) (threadId : ThreadId) (listening : Bool) :
    Streams W (s.subscribe W id threadId listening).1 := by
  unfold Router.subscribe
  have hp := keeps_pruneSubscribers s
  dsimp only
  split
  · exact h.keeps hp
  · cases hf : s.pruneSubscribers.routeForUpdate threadId with
    | mk s₁ found =>
      obtain ⟨hk, hr⟩ := routeForUpdate_cases _ threadId hf
      have h₁ := (h.keeps hp).keeps hk
      have hn₁ : s₁.subscriptions id = none := by rw [hk.subscriptions]; exact hn
      cases found with
      | none => exact h₁
      | some route =>
        dsimp only
        split
        · exact h₁
        · split
          · exact h₁
          · have hl := (hr route rfl).1
            have hid (t : ThreadId) (id' : SubscriptionId) (hreg : s₁.Registered t id') : id' ≠ id := by
              rintro rfl
              obtain ⟨sub, hsub, -⟩ := h₁.own t _ hreg
              rw [hn₁] at hsub
              cases hsub
            refine ⟨?_, ?_, h₁.log⟩
            · rintro t id' ⟨r, hr', hid'⟩
              simp only [setRoute, KeyMap.lookup_insert_ite] at hr'
              dsimp only [setRoute]
              by_cases ht : t = threadId
              · subst ht
                rw [if_pos rfl] at hr'
                cases hr'
                rcases List.mem_append.1 hid' with hid' | hid'
                · have hreg : s₁.Registered t id' := ⟨route, hl, hid'⟩
                  rw [Function.update_of_ne (hid t id' hreg)]
                  exact h₁.own t id' hreg
                · rw [List.mem_singleton.1 hid', Function.update_self]
                  obtain ⟨m, hm, hc, -⟩ := pushTerminal_new (W := W) (routeForUpdate_valid hf)
                  refine ⟨_, rfl, ?_, ?_⟩
                  · unfold newSubscription; split <;> rfl
                  · intro _; unfold newSubscription; split
                    · simpa [hm] using hc
                    · rfl
              · rw [if_neg ht] at hr'
                have hreg : s₁.Registered t id' := ⟨r, hr', hid'⟩
                rw [Function.update_of_ne (hid t id' hreg)]
                exact h₁.own t id' hreg
            · intro id' sub hsub
              dsimp only [setRoute] at hsub
              by_cases he : id' = id
              · subst he
                rw [Function.update_self] at hsub
                cases hsub
                refine told_new (routeForUpdate_valid hf) rfl ⟨_, AList.lookup_insert _, ?_⟩ _
                simp
              · rw [Function.update_of_ne he] at hsub
                obtain ⟨hexact, hsince, hprimed, hdropped, hopen, hclosed⟩ := h₁.told id' sub hsub
                refine ⟨hexact, hsince, hprimed, hdropped, fun hheld hc => ?_, hclosed⟩
                obtain ⟨⟨r, hr', hid'⟩, hrest⟩ := hopen hheld hc
                refine ⟨?_, hrest⟩
                by_cases ht : sub.thread = threadId
                · refine ⟨_, by rw [ht]; exact AList.lookup_insert _, ?_⟩
                  rw [ht, hl] at hr'
                  cases hr'
                  exact List.mem_append_left _ hid'
                · exact ⟨r, by simpa [setRoute, KeyMap.lookup_insert_ite, ht] using hr', hid'⟩

/-- **One command.** -/
theorem Streams.handleRouterCommand (h : Streams W s) {command : RouterCommand}
    (hs : RouterSystem.sendable s command = true) (listening : Bool) :
    Streams W (s.handleRouterCommand W command listening).1 := by
  unfold Router.handleRouterCommand
  cases command with
  | subscribe id threadId =>
    exact h.subscribe (by simpa [RouterSystem.sendable] using hs) threadId listening
  | unsubscribe id threadId =>
    dsimp only
    split
    · exact h
    · next route hl =>
      refine h.keeps ⟨rfl, rfl, ?_, ?_⟩
      · rintro t id' ⟨r, hr, hid'⟩
        simp only [setRoute, KeyMap.lookup_insert_ite] at hr
        split at hr
        · next ht => cases hr; exact ⟨route, ht ▸ hl, List.mem_of_mem_filter hid'⟩
        · exact ⟨r, hr, hid'⟩
      · rintro t id' hlive ⟨r, hr, hid'⟩
        have hne : id' ≠ id := by
          rintro rfl
          cases hsub : s.subscriptions id' with
          | none => simp [Router.live, hsub] at hlive
          | some sub =>
            simp only [Router.live, hsub, Option.any_some, Subscription.live, Bool.and_eq_true] at hlive
            simp [RouterSystem.sendable, hsub, hlive.1] at hs
        by_cases ht : t = threadId
        · subst ht
          rw [hl] at hr
          cases hr
          exact ⟨_, AList.lookup_insert _, List.mem_filter.2 ⟨hid', by simpa using hne⟩⟩
        · exact ⟨r, by simpa [setRoute, KeyMap.lookup_insert_ite, ht] using hr, hid'⟩
  | observeTurnStarted threadId attempt turn =>
    exact (h.routeTurnStarted threadId turn).finishTurnStart threadId attempt
  | beginTurnStart threadId attempt =>
    dsimp only
    cases hf : s.routeForUpdate threadId with
    | mk s₁ found =>
      obtain ⟨hk, hr⟩ := routeForUpdate_cases s threadId hf
      cases found with
      | none => exact h.keeps hk
      | some route =>
        have hb : Keeps s₁ (s₁.setRoute threadId
            { route with pendingTurnStart := some attempt, deferTurnNotifications := true }) :=
          keeps_setRoute (hr route rfl).1 rfl
        dsimp only
        split
        · exact h.keeps hk
        · split
          · exact (h.keeps hk).keeps hb
          · exact ((h.keeps hk).keeps hb).finishTurnStart threadId attempt
  | abortTurnStart threadId attempt => exact h.finishTurnStart threadId attempt
  | observeThreadStarted threadId => exact h.routeThreadStarted threadId
  | ensureRoute threadId =>
    dsimp only
    cases hf : s.routeForUpdate threadId with
    | mk s₁ found => exact h.keeps (routeForUpdate_cases s threadId hf).1
  | releaseRoute threadId =>
    dsimp only
    split
    · next hrel =>
      refine (h.keeps (keeps_pruneSubscribers s)).keeps ⟨rfl, rfl, ?_, ?_⟩
      · rintro t id ⟨r, hr, hid⟩
        simp only [KeyMap.lookup_erase_ite] at hr
        split at hr
        · cases hr
        · exact ⟨r, hr, hid⟩
      · rintro t id - ⟨r, hr, hid⟩
        refine ⟨r, ?_, hid⟩
        rw [KeyMap.lookup_erase_ite, if_neg]
        · exact hr
        · rintro rfl
          rw [hr] at hrel
          simp only [Option.any_some, Bool.and_eq_true, List.isEmpty_iff] at hrel
          rw [hrel.1.1.1.1] at hid
          cases hid
    · exact h.keeps (keeps_pruneSubscribers s)

/-! ## Readers -/

theorem Ends.of_isPrefix {shown events' : List AppServerEvent} (h : events <+: shown ∨ Ends threadId shown events)
    (hp : events' <+: events) :
    events' <+: shown ∨ Ends threadId shown events' := by
  rcases h with h | h
  · exact Or.inl (hp.trans h)
  · have part {front : List AppServerEvent} {last : AppServerEvent} (hf : front <+: shown)
        (hp : events' <+: front ++ [last]) : events' <+: shown ∨ events' = front ++ [last] := by
      rcases List.prefix_concat_iff.1 hp with h | h
      · exact Or.inr h
      · exact Or.inl (h.trans hf)
    rcases h with ⟨front, reason, hf, rfl⟩ | ⟨exit, rfl⟩
    · rcases part hf hp with h | h
      · exact Or.inl h
      · exact Or.inr (Or.inl ⟨front, reason, hf, h⟩)
    · rcases part List.prefix_rfl hp with h | h
      · exact Or.inl h
      · exact Or.inr (Or.inr ⟨exit, h⟩)

theorem Told.shown (h : s.Told (W := W) id sub) :
    s.Shown sub sub.received := by
  have hp : sub.received <+: seen sub := ⟨_, rfl⟩
  cases hheld : sub.held with
  | false => exact h.dropped hheld
  | true =>
    cases hc : sub.mailbox.closed with
    | false => exact ⟨_, seen sub, List.prefix_rfl, (h.isOpen hheld hc).2.1, Or.inl hp⟩
    | true =>
      obtain ⟨⟨served, shown, hserved, hf, he⟩, -⟩ := h.isClosed hheld hc
      exact ⟨served, shown, hserved, hf, Ends.of_isPrefix (Or.inr he) hp⟩

theorem Told.congr (hlog : s'.log = s.log) (hroutes : s'.routes = s.routes) (h : s.Told (W := W) id sub) :
    s'.Told (W := W) id sub := by
  have hd : s'.dispatched sub = s.dispatched sub := dispatched_congr hlog sub
  refine ⟨h.exact, hlog ▸ h.since, h.primed, ?_, ?_, ?_⟩
  · unfold Shown; rw [hd]; exact h.dropped
  · unfold Registered; rw [hd, hroutes]; exact h.isOpen
  · rw [hd]; exact h.isClosed

theorem Streams.updateSubscription (h : Streams W s) {sub' : Subscription} (hsub : s.subscriptions id = some sub)
    (hthread : sub'.thread = sub.thread)
    (hopen : sub'.held = true → sub.held = true ∧ sub'.mailbox.closed = sub.mailbox.closed)
    (htold : s.Told (W := W) id sub') :
    Streams W { s with subscriptions := Function.update s.subscriptions id (some sub') } where
  own t id' hr := by
    obtain ⟨sub₁, hsub₁, ht, hc⟩ := h.own t id' hr
    by_cases he : id' = id
    · subst he
      rw [hsub] at hsub₁
      cases hsub₁
      refine ⟨sub', Function.update_self .., hthread.trans ht, fun hheld => ?_⟩
      rw [(hopen hheld).2]
      exact hc (hopen hheld).1
    · exact ⟨sub₁, by rw [← hsub₁]; exact Function.update_of_ne he .., ht, hc⟩
  told id' sub₁ hsub₁ := by
    dsimp only at hsub₁
    by_cases he : id' = id
    · subst he
      rw [Function.update_self] at hsub₁
      cases hsub₁
      exact Told.congr (s := s) rfl rfl htold
    · rw [Function.update_of_ne he] at hsub₁
      exact Told.congr (s := s) rfl rfl (h.told id' sub₁ hsub₁)
  log := h.log

/-- A reader takes the first event of its mailbox. -/
theorem told_recv (hr : sub.mailbox.recv = (.event event, mailbox)) (hheld : sub.held = true)
    (h : s.Told (W := W) id sub) :
    s.Told (W := W) id { sub with mailbox := mailbox, received := sub.received ++ [event] } := by
  obtain ⟨hq, hclosed⟩ := Mailbox.recv_event hr
  have hseen : seen { sub with mailbox := mailbox, received := sub.received ++ [event] } = seen sub := by
    simp [seen, hq]
  have hexact := h.exact.recv
  rw [hr] at hexact
  refine ⟨hexact, h.since, h.primed, ?_, ?_, ?_⟩
  · intro hh; rw [show sub.held = false from hh] at hheld; cases hheld
  · intro _ hc
    rw [hseen]
    exact h.isOpen hheld (hclosed ▸ hc)
  · intro _ hc
    obtain ⟨he, hended⟩ := h.isClosed hheld (hclosed ▸ hc)
    rw [hseen]
    refine ⟨he, fun hen => ?_⟩
    have := hended hen
    simp [Mailbox.queued, this] at hq

/-- A subscription that nobody reads any more. -/
theorem told_dropped (hm : mailbox.Exact W.weights) (h : s.Told (W := W) id sub) :
    s.Told (W := W) id { sub with mailbox := mailbox, held := false } :=
  ⟨hm, h.since, h.primed, fun _ => h.shown, (by intro hh; cases hh), (by intro hh; cases hh)⟩

end Router

namespace RouterSystem

open Router

/-- The reader of a subscription polls. -/
theorem streams_recv {s : RouterSystem} (h : Streams W s.router) {id : SubscriptionId} {sub : Subscription}
    (hsub : s.router.subscriptions id = some sub) (hheld : sub.held = true) : Streams W (s.recv id sub).router := by
  have ht := h.told id sub hsub
  unfold RouterSystem.recv
  split
  · next event mailbox hr =>
    refine h.updateSubscription hsub rfl (fun _ => ⟨hheld, (Mailbox.recv_event hr).2⟩) (told_recv hr hheld ht)
  · exact h
  · next hr =>
    obtain ⟨hc, he⟩ := Mailbox.recv_ended.1 (congrArg Prod.fst hr)
    refine h.updateSubscription hsub rfl (fun _ => ⟨hheld, rfl⟩) ⟨ht.exact, ht.since, ht.primed, ?_, ?_, ?_⟩
    · intro hh; rw [show sub.held = false from hh] at hheld; cases hheld
    · intro _ ho; rw [show sub.mailbox.closed = false from ho] at hc; cases hc
    · intro _ _; exact ⟨(ht.isClosed hheld hc).1, fun _ => he⟩

/-- **One event.** -/
theorem step_streams (s : RouterSystem) (e : RouterEvent) (h : Streams W s.router) : Streams W (step W s e).router := by
  cases e with
  | notification n =>
    simp only [step]
    split
    · exact h.routeNotification n
    · exact h
  | command command listening =>
    simp only [step]
    split
    · next hs => exact h.handleRouterCommand hs.2 listening
    · exact h
  | leave => simp only [step]; split <;> exact h
  | close exit =>
    simp only [step]
    split
    · exact h.closeSubscribers exit
    · exact h
  | recv id =>
    simp only [step]
    split
    · next sub hsub =>
      split
      · next hheld => exact streams_recv h hsub hheld
      · exact h
    · exact h
  | drop id =>
    simp only [step]
    split
    · next sub hsub =>
      exact h.updateSubscription hsub rfl (fun hh => by cases hh) (told_dropped (h.told id sub hsub).exact.close
        (h.told id sub hsub))
    · exact h
  | forget id =>
    simp only [step]
    split
    · next sub hsub =>
      exact h.updateSubscription hsub rfl (fun hh => by cases hh) (told_dropped (h.told id sub hsub).exact
        (h.told id sub hsub))
    · exact h
  | order ids => exact h.keeps ⟨rfl, rfl, fun _ _ h => h, fun _ _ _ h => h⟩

theorem after_streams (events : List RouterEvent) : Streams W (after W events).router :=
  exec_invariant' (I := fun s : RouterSystem => Streams W s.router) step_streams streams_empty

theorem after_closed (events : List RouterEvent) :
    (after W events).phase = .closed → (after W events).router.routes = ∅ := by
  refine exec_invariant' (I := fun s : RouterSystem => s.phase = .closed → s.router.routes = ∅) ?_ (by intro h; cases h)
  intro s e h
  cases e with
  | notification n =>
    simp only [step]
    split
    · next hp => simp only [continueOrLeave]; split <;> simp [hp]
    · exact h
  | command command listening =>
    simp only [step]
    split
    · next hp => simp only [continueOrLeave]; split <;> simp [hp.1]
    · exact h
  | leave => simp only [step]; split <;> simp_all
  | close exit =>
    simp only [step]
    split
    · intro _; rfl
    · exact h
  | recv id =>
    simp only [step]
    split
    · split
      · unfold RouterSystem.recv; split <;> exact h
      · exact h
    · exact h
  | drop id | forget id => simp only [step]; split <;> exact h
  | order ids => exact h

/-- A wire that decodes nothing, with weights of nought. -/
def silentWire : Wire where
  weights := ⟨fun _ _ => 0, fun _ _ => 0, fun _ _ => 0⟩
  null := "null"
  valueWeight _ := 0
  threadIdOf _ := none
  threadStarted _ := none
  turnStarted _ := none
  itemStarted _ := none
  agentMessageDelta _ := none
  commandOutputDelta _ := none
  itemCompleted _ := none
  tokenUsageUpdated _ := none
  error _ := none
  turnCompleted _ := none
  itemFingerprint _ := 0
  turnFingerprint _ := 0

/-- A subscriber of a thread that starts, and the end of the connection. -/
def startedAndClosed : List RouterEvent :=
  [.command (.subscribe 0 "t") true, .command (.observeThreadStarted "t") true, .recv 0, .leave, .close .cancelled, .recv 0]

end RouterSystem

end LarkCodexBridge.Codex
