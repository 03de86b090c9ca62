import HeadlessEditor.Proofs.EditorWork
import HeadlessEditor.Proofs.Ownership
import Mathlib.Data.List.TakeWhile

/-!
Hooks, the subscriptions of extensions. They are attached when an extension has been loaded and detached
when it is unloaded; events are announced in between. What happens in this order decides which events an
extension receives: those of its kinds that are announced between the two.
-/

namespace HeadlessEditor

namespace Extension

theorem nodup_eventKinds (extension : Extension) : extension.eventKinds.Nodup := by
  have hall : EventKind.all.Nodup := by decide
  exact hall.sublist List.filter_sublist

@[simp] theorem mem_eventKinds {extension : Extension} {kind : EventKind} :
    kind ∈ extension.eventKinds ↔ kind ∈ extension.hooks := by
  have hall : kind ∈ EventKind.all := by cases kind <;> decide
  simp [eventKinds, hall]

end Extension

namespace LoadedExtension

variable {loaded : LoadedExtension}

def hooks (loaded : LoadedExtension) : List Subscriber :=
  (loaded.subscriptions.zip loaded.extension.eventKinds).map fun (id, kind) =>
    ⟨id, kind, .extension loaded.extension.name⟩

/-- There is one subscription for each kind that the extension listens to. -/
def Fits (loaded : LoadedExtension) : Prop :=
  loaded.subscriptions.length = loaded.extension.eventKinds.length

theorem listener_of_mem_hooks {hook : Subscriber} (h : hook ∈ loaded.hooks) :
    hook.listener = .extension loaded.extension.name := by
  obtain ⟨pair, -, rfl⟩ := List.mem_map.1 h
  rfl

theorem Fits.map_id_hooks (h : loaded.Fits) : loaded.hooks.map (·.id) = loaded.subscriptions := by
  rw [hooks, List.map_map]
  exact List.map_fst_zip (Nat.le_of_eq h)

theorem Fits.map_kind_hooks (h : loaded.Fits) :
    loaded.hooks.map (·.kind) = loaded.extension.eventKinds := by
  rw [hooks, List.map_map]
  exact List.map_snd_zip (Nat.le_of_eq h.symm)

/-- A kind has a hook if the extension listens to it, and never two. -/
theorem Fits.countP_kind (h : loaded.Fits) (kind : EventKind) :
    loaded.hooks.countP (·.kind == kind)
      = if loaded.extension.hooks.contains kind then 1 else 0 := by
  have hcount : loaded.hooks.countP (·.kind == kind) = loaded.extension.eventKinds.count kind := by
    rw [← h.map_kind_hooks, List.count, List.countP_map]
    rfl
  rw [hcount, loaded.extension.nodup_eventKinds.count]
  simp

/-- An event reaches an extension once if it is of a kind that the extension listens to. -/
theorem Fits.reaching_hooks (h : loaded.Fits) (event : Event) :
    (event.reaching loaded.hooks).map (·.2)
      = [event].filter (loaded.extension.hooks.contains ·.kind) := by
  have hcount := h.countP_kind event.kind
  rw [List.countP_eq_length_filter] at hcount
  rw [Event.reaching, List.map_map]
  have hconst : (fun (pair : Subscriber × Event) => pair.2) ∘ (·, event)
      = Function.const Subscriber event := rfl
  rw [hconst, List.map_const, hcount, List.filter_singleton]
  cases loaded.extension.hooks.contains event.kind <;> rfl

end LoadedExtension

inductive Happening where
  | announced (event : Event)
  | attached (loaded : LoadedExtension)
  | detached (name : String)

namespace Happening

/-- The hooks that it brings about. -/
def begun : Happening → List Subscriber
  | attached loaded => loaded.hooks
  | announced _ | detached _ => []

def hooksAfter (hooks : List Subscriber) : Happening → List Subscriber
  | announced _ => hooks
  | attached loaded => hooks ++ loaded.hooks
  | detached name => hooks.filter (·.listener != .extension name)

def brings (hooks : List Subscriber) : Happening → List (Subscriber × Event)
  | announced event => event.reaching hooks
  | attached _ | detached _ => []

def event? : Happening → Option Event
  | announced event => some event
  | attached _ | detached _ => none

/-- Whether the extension of this name loses its hooks. -/
def detaches (name : String) : Happening → Bool
  | detached other => other == name
  | announced _ | attached _ => false

def hooksAfterAll (hooks : List Subscriber) (history : List Happening) : List Subscriber :=
  history.foldl hooksAfter hooks

def bringsAll (hooks : List Subscriber) : List Happening → List (Subscriber × Event)
  | [] => []
  | happening :: rest => happening.brings hooks ++ bringsAll (happening.hooksAfter hooks) rest

/-- The events that are announced until the extension of this name loses its hooks. -/
def announcedUntil (name : String) (history : List Happening) : List Event :=
  (history.takeWhile (!·.detaches name)).filterMap event?

variable {hooks : List Subscriber} {history : List Happening} {loaded : LoadedExtension}

theorem mem_flatMap_begun {hook : Subscriber} :
    hook ∈ history.flatMap begun ↔ ∃ loaded, attached loaded ∈ history ∧ hook ∈ loaded.hooks := by
  rw [List.mem_flatMap]
  constructor
  · rintro ⟨happening, hin, hhook⟩
    cases happening with
    | attached loaded => exact ⟨loaded, hin, hhook⟩
    | announced event => cases hhook
    | detached name => cases hhook
  · rintro ⟨loaded, hin, hhook⟩
    exact ⟨attached loaded, hin, hhook⟩

theorem hooksAfterAll_append (hooks : List Subscriber) (first second : List Happening) :
    hooksAfterAll hooks (first ++ second) = hooksAfterAll (hooksAfterAll hooks first) second :=
  List.foldl_append

theorem bringsAll_append (hooks : List Subscriber) (first second : List Happening) :
    bringsAll hooks (first ++ second)
      = bringsAll hooks first ++ bringsAll (hooksAfterAll hooks first) second := by
  induction first generalizing hooks with
  | nil => rfl
  | cons happening rest ih =>
    rw [List.cons_append, bringsAll, ih, ← List.append_assoc]
    rfl

theorem hooksAfterAll_announced (hooks : List Subscriber) (events : List Event) :
    hooksAfterAll hooks (events.map announced) = hooks := by
  induction events with
  | nil => rfl
  | cons event rest ih => exact ih

theorem bringsAll_announced (hooks : List Subscriber) (events : List Event) :
    bringsAll hooks (events.map announced) = events.flatMap (·.reaching hooks) := by
  induction events with
  | nil => rfl
  | cons event rest ih => exact congrArg (event.reaching hooks ++ ·) ih

theorem hooksAfter_sublist (hooks : List Subscriber) (happening : Happening) :
    (happening.hooksAfter hooks).Sublist (hooks ++ happening.begun) := by
  cases happening with
  | announced event => exact List.sublist_append_left hooks []
  | attached loaded => exact List.Sublist.refl _
  | detached name => exact List.filter_sublist.trans (List.sublist_append_left hooks [])

/-- Hooks were there or have begun since, and they stand in this order. -/
theorem hooksAfterAll_sublist (hooks : List Subscriber) (history : List Happening) :
    (hooksAfterAll hooks history).Sublist (hooks ++ history.flatMap begun) := by
  induction history generalizing hooks with
  | nil => exact List.sublist_append_left hooks []
  | cons happening rest ih =>
    rw [List.flatMap_cons, ← List.append_assoc]
    exact (ih _).trans ((hooksAfter_sublist hooks happening).append_right _)

/-- Events reach hooks that were there or have begun since. -/
theorem mem_bringsAll {notice : Subscriber × Event} (h : notice ∈ bringsAll hooks history) :
    notice.1 ∈ hooks ++ history.flatMap begun := by
  induction history generalizing hooks with
  | nil => cases h
  | cons happening rest ih =>
    rw [List.flatMap_cons, ← List.append_assoc]
    rcases List.mem_append.1 h with hnow | hlater
    · cases happening with
      | announced event =>
        obtain ⟨hook, hhook, rfl⟩ := List.mem_map.1 hnow
        have hold : hook ∈ hooks := (List.mem_filter.1 hhook).1
        simp [hold]
      | attached loaded => cases hnow
      | detached name => cases hnow
    · exact ((hooksAfter_sublist hooks happening).append_right _).subset (ih hlater)

/-- Nothing reaches the hooks of an extension when they are not there and do not come. -/
theorem filter_bringsAll_eq_nil (habsent : loaded.hooks.Disjoint hooks)
    (hapart : loaded.hooks.Disjoint (history.flatMap begun)) :
    (bringsAll hooks history).filter (·.1 ∈ loaded.hooks) = [] := by
  rw [List.filter_eq_nil_iff]
  intro notice hnotice
  rw [decide_eq_true_eq]
  intro hin
  rcases List.mem_append.1 (mem_bringsAll hnotice) with hold | hnew
  · exact habsent hin hold
  · exact hapart hin hnew

theorem announcedUntil_cons {happening : Happening} {name : String}
    (h : happening.detaches name = false) (rest : List Happening) :
    announcedUntil name (happening :: rest)
      = happening.event?.toList ++ announcedUntil name rest := by
  rw [announcedUntil, List.takeWhile_cons_of_pos (by simp [h])]
  cases happening <;> rfl

/-- As long as the hooks of an extension are there, an event that is announced reaches them if it is of
their kinds. -/
theorem filter_brings (hfits : loaded.Fits)
    (hattached : hooks.filter (· ∈ loaded.hooks) = loaded.hooks) (happening : Happening) :
    ((happening.brings hooks).filter (·.1 ∈ loaded.hooks)).map (·.2)
      = happening.event?.toList.filter (loaded.extension.hooks.contains ·.kind) := by
  cases happening with
  | announced event =>
    have hreaching : (event.reaching hooks).filter (·.1 ∈ loaded.hooks)
        = event.reaching loaded.hooks := by
      rw [Event.reaching, List.filter_map, List.filter_filter, Event.reaching]
      conv => rhs; rw [← hattached, List.filter_filter]
      simp [Bool.and_comm]
    rw [brings, hreaching]
    exact hfits.reaching_hooks event
  | attached other => rfl
  | detached name => rfl

/-- Whatever happens to other hooks. -/
theorem filter_hooksAfter (hattached : hooks.filter (· ∈ loaded.hooks) = loaded.hooks)
    {happening : Happening} (hapart : loaded.hooks.Disjoint happening.begun)
    (hkept : happening.detaches loaded.extension.name = false) :
    (happening.hooksAfter hooks).filter (· ∈ loaded.hooks) = loaded.hooks := by
  cases happening with
  | announced event => exact hattached
  | attached other =>
    have hother : other.hooks.filter (· ∈ loaded.hooks) = [] := by
      refine List.filter_eq_nil_iff.2 fun hook hhook => ?_
      rw [decide_eq_true_eq]
      exact fun hin => hapart hin hhook
    rw [hooksAfter, List.filter_append, hattached, hother, List.append_nil]
  | detached name =>
    have hspared : hooks.filter (fun hook => hook ∈ loaded.hooks && hook.listener != .extension name)
        = hooks.filter (· ∈ loaded.hooks) := by
      refine List.filter_congr fun hook _ => ?_
      by_cases hin : hook ∈ loaded.hooks
      · have hname : loaded.extension.name ≠ name := fun heq => by simp [detaches, heq] at hkept
        simp [hin, LoadedExtension.listener_of_mem_hooks hin, hname]
      · simp [hin]
    rw [hooksAfter, List.filter_filter, hspared, hattached]

theorem disjoint_hooksAfter_detached (hooks : List Subscriber) (loaded : LoadedExtension) :
    loaded.hooks.Disjoint (hooksAfter hooks (detached loaded.extension.name)) := by
  intro hook hin hhook
  have hlistener := (List.mem_filter.1 hhook).2
  simp [LoadedExtension.listener_of_mem_hooks hin] at hlistener

/-- While the hooks of an extension are there, the events of its kinds reach them; when they have
been detached, nothing does. -/
theorem filter_bringsAll_of_attached (hfits : loaded.Fits)
    (hattached : hooks.filter (· ∈ loaded.hooks) = loaded.hooks)
    (hapart : loaded.hooks.Disjoint (history.flatMap begun)) :
    ((bringsAll hooks history).filter (·.1 ∈ loaded.hooks)).map (·.2)
      = (announcedUntil loaded.extension.name history).filter
          (loaded.extension.hooks.contains ·.kind) := by
  induction history generalizing hooks with
  | nil => rfl
  | cons happening rest ih =>
    rw [List.flatMap_cons, List.disjoint_append_right] at hapart
    obtain ⟨hnow, hlater⟩ := hapart
    cases hdetaches : happening.detaches loaded.extension.name with
    | false =>
      have hkept := filter_hooksAfter hattached hnow hdetaches
      rw [bringsAll, List.filter_append, List.map_append, filter_brings hfits hattached,
        ih hkept hlater, announcedUntil_cons hdetaches, List.filter_append]
    | true =>
      -- Here the induction ends: what comes later is not for this extension.
      cases happening with
      | announced event => cases hdetaches
      | attached other => cases hdetaches
      | detached name =>
        obtain rfl := eq_of_beq hdetaches
        have hgone := disjoint_hooksAfter_detached hooks loaded
        rw [announcedUntil, List.takeWhile_cons_of_neg (by simp [detaches])]
        exact congrArg (List.map (·.2)) (filter_bringsAll_eq_nil hgone hlater)

/-- Of all the events of a history, those reach the hooks of an extension that are of its kinds and are
announced after these are attached and before they are detached. -/
theorem filter_bringsAll_of_history {earlier later : List Happening} (hfits : loaded.Fits)
    (hdistinct : ((earlier ++ attached loaded :: later).flatMap begun).Nodup) :
    ((bringsAll [] (earlier ++ attached loaded :: later)).filter (·.1 ∈ loaded.hooks)).map (·.2)
      = (announcedUntil loaded.extension.name later).filter
          (loaded.extension.hooks.contains ·.kind) := by
  rw [List.flatMap_append, List.flatMap_cons, List.nodup_append'] at hdistinct
  obtain ⟨-, hdistinct, hapart⟩ := hdistinct
  obtain ⟨hbefore, -⟩ := List.disjoint_append_right.1 hapart
  have hafter : loaded.hooks.Disjoint (later.flatMap begun) := (List.nodup_append'.1 hdistinct).2.2
  have hattached : (hooksAfterAll [] earlier ++ loaded.hooks).filter (· ∈ loaded.hooks)
      = loaded.hooks := by
    have hothers : (hooksAfterAll [] earlier).filter (· ∈ loaded.hooks) = [] := by
      refine List.filter_eq_nil_iff.2 fun hook hhook => ?_
      rw [decide_eq_true_eq]
      exact hbefore ((hooksAfterAll_sublist [] earlier).subset hhook)
    have hown : loaded.hooks.filter (· ∈ loaded.hooks) = loaded.hooks :=
      List.filter_eq_self.2 fun hook hhook => decide_eq_true hhook
    rw [List.filter_append, hothers, hown, List.nil_append]
  have hstart : bringsAll (hooksAfterAll [] earlier) (attached loaded :: later)
      = bringsAll (hooksAfterAll [] earlier ++ loaded.hooks) later := rfl
  rw [bringsAll_append, List.filter_append,
    filter_bringsAll_eq_nil (List.disjoint_nil_right _) hbefore.symm, List.nil_append, hstart]
  exact filter_bringsAll_of_attached hfits hattached hafter

end Happening

/-- The hooks stand in the order of their ids, and these have all been given out. -/
structure EventBus.Ordered (bus : EventBus) : Prop where
  sorted : bus.hooks.Pairwise (·.id < ·.id)
  given : ∀ hook ∈ bus.hooks, hook.id ≤ bus.lastId

namespace Editor

variable {editor middle after : Editor} {first second history : List Happening}

/-- With an editor happens what a history says: its hooks come and go, they hear what the history brings
to them, and hooks that come have new ids. -/
structure Undergoes (editor : Editor) (history : List Happening) (after : Editor) : Prop where
  hooks : after.bus.hooks = Happening.hooksAfterAll editor.bus.hooks history
  heard : after.hookNotices = editor.hookNotices ++ Happening.bringsAll editor.bus.hooks history
  grown : editor.bus.lastId ≤ after.bus.lastId
  new : ∀ hook ∈ history.flatMap Happening.begun,
    editor.bus.lastId < hook.id ∧ hook.id ≤ after.bus.lastId
  sorted : (history.flatMap Happening.begun).Pairwise (·.id < ·.id)
  fits : ∀ loaded, .attached loaded ∈ history → loaded.Fits

theorem Undergoes.trans (h : editor.Undergoes first middle) (hnext : middle.Undergoes second after) :
    editor.Undergoes (first ++ second) after where
  hooks := by
    rw [hnext.hooks, h.hooks, Happening.hooksAfterAll_append]
  heard := by
    rw [hnext.heard, h.heard, h.hooks, Happening.bringsAll_append, List.append_assoc]
  grown := Nat.le_trans h.grown hnext.grown
  new := by
    intro hook hhook
    rw [List.flatMap_append] at hhook
    rcases List.mem_append.1 hhook with hfirst | hsecond
    · exact ⟨(h.new hook hfirst).1, Nat.le_trans (h.new hook hfirst).2 hnext.grown⟩
    · exact ⟨Nat.lt_of_le_of_lt h.grown (hnext.new hook hsecond).1, (hnext.new hook hsecond).2⟩
  sorted := by
    rw [List.flatMap_append, List.pairwise_append]
    refine ⟨h.sorted, hnext.sorted, fun hook hhook other hother => ?_⟩
    exact Nat.lt_of_le_of_lt (h.new hook hhook).2 (hnext.new other hother).1
  fits := by
    intro loaded hin
    rcases List.mem_append.1 hin with hfirst | hsecond
    · exact h.fits loaded hfirst
    · exact hnext.fits loaded hsecond

theorem Undergoes.ordered (h : editor.Undergoes history after) (hordered : editor.bus.Ordered) :
    after.bus.Ordered := by
  have hsub := Happening.hooksAfterAll_sublist editor.bus.hooks history
  rw [← h.hooks] at hsub
  constructor
  · refine List.Pairwise.sublist hsub (List.pairwise_append.2 ⟨hordered.sorted, h.sorted, ?_⟩)
    intro hook hhook other hother
    exact Nat.lt_of_le_of_lt (hordered.given hook hhook) (h.new other hother).1
  · intro hook hhook
    rcases List.mem_append.1 (hsub.subset hhook) with hold | hnew
    · exact Nat.le_trans (hordered.given hook hold) h.grown
    · exact (h.new hook hnew).2

/-- Work leaves the hooks as they are. -/
theorem Works.undergoes {events : List Event} (h : Works editor events after) :
    editor.Undergoes (events.map .announced) after := by
  have hnone : (events.map Happening.announced).flatMap Happening.begun = [] := by
    simp [List.flatMap_map, Happening.begun]
  obtain ⟨hhooks, hgrown, hheard⟩ := h.hooks
  constructor
  · rw [hhooks, Happening.hooksAfterAll_announced]
  · rw [hheard, Happening.bringsAll_announced]
  · exact hgrown
  · simp [hnone]
  · simp [hnone]
  · intro loaded hin
    obtain ⟨event, -, heq⟩ := List.mem_map.1 hin
    cases heq

end Editor

namespace Registry

/-- The subscriptions get the next ids, in order. -/
theorem subscribeAll_eq (editor : Editor) (listener : Listener) (kinds : List EventKind) :
    let ids := List.range' (editor.bus.lastId + 1) kinds.length
    subscribeAll editor listener kinds =
      ({ editor with
          bus :=
            { lastId := editor.bus.lastId + kinds.length
              subscribers := editor.bus.subscribers ++
                (ids.zip kinds).map fun (id, kind) => ⟨id, kind, listener⟩ } },
        ids) := by
  induction kinds generalizing editor with
  | nil => simp [subscribeAll]
  | cons kind rest ih =>
    simp only [subscribeAll, ih, List.length_cons, List.range'_succ, List.zip_cons_cons,
      List.map_cons]
    simp [Editor.subscribe, EventBus.subscribe, Nat.add_assoc, Nat.add_comm 1]

theorem unsubscribeAll_eq (editor : Editor) (ids : List SubscriptionId) :
    unsubscribeAll editor ids =
      { editor with
        bus :=
          { editor.bus with subscribers := editor.bus.subscribers.filter (·.id ∉ ids) } } := by
  induction ids generalizing editor with
  | nil => simp [unsubscribeAll]
  | cons id rest ih =>
    rw [unsubscribeAll, List.foldl_cons]
    refine (ih _).trans ?_
    simp only [Editor.unsubscribe, EventBus.unsubscribe, List.filter_filter]
    congr 2
    refine List.filter_congr fun subscriber _ => ?_
    by_cases hid : subscriber.id = id
    · simp [hid]
    · simp [hid]

end Registry

namespace Editor

variable {editor : Editor}

/-- A loaded extension gets its hooks. -/
theorem undergoes_attached (editor : Editor) (extension : Extension) :
    let subscribed := Registry.subscribeAll editor (.extension extension.name) extension.eventKinds
    editor.Undergoes [.attached ⟨extension, subscribed.2, 0⟩] subscribed.1 := by
  rw [Registry.subscribeAll_eq]
  let ids := List.range' (editor.bus.lastId + 1) extension.eventKinds.length
  let loaded : LoadedExtension := ⟨extension, ids, 0⟩
  have hfits : loaded.Fits := List.length_range'
  have hbegun : [Happening.attached loaded].flatMap Happening.begun = loaded.hooks :=
    List.append_nil _
  have hgiven : ∀ hook ∈ loaded.hooks, editor.bus.lastId < hook.id ∧
      hook.id ≤ editor.bus.lastId + extension.eventKinds.length := by
    intro hook hhook
    have hid := List.mem_map_of_mem (f := (·.id)) hhook
    rw [hfits.map_id_hooks] at hid
    have hrange := List.mem_range'_1.1 hid
    rw [Nat.add_right_comm] at hrange
    exact ⟨hrange.1, Nat.le_of_lt_succ hrange.2⟩
  constructor
  · have hlisteners : loaded.hooks.filter (·.listener.isExtension) = loaded.hooks := by
      refine List.filter_eq_self.2 fun hook hhook => ?_
      rw [LoadedExtension.listener_of_mem_hooks hhook]
      rfl
    exact (List.filter_append ..).trans (congrArg (editor.bus.hooks ++ ·) hlisteners)
  · exact (List.append_nil _).symm
  · exact Nat.le_add_right _ _
  · intro hook hhook
    exact hgiven hook (hbegun ▸ hhook)
  · have hsorted : (loaded.hooks.map (·.id)).Pairwise (· < ·) := by
      rw [hfits.map_id_hooks]
      exact List.pairwise_lt_range'
    rw [hbegun]
    exact List.pairwise_map.1 hsorted
  · intro other hother
    cases hother with
    | head => exact hfits
    | tail _ hother => cases hother

/-- An extension loses its hooks. -/
theorem undergoes_detached {name : String} {ids : List SubscriptionId}
    (h : editor.bus.hooks.filter (·.id ∉ ids)
      = editor.bus.hooks.filter (·.listener != .extension name)) :
    editor.Undergoes [.detached name] (Registry.unsubscribeAll editor ids) := by
  rw [Registry.unsubscribeAll_eq]
  constructor
  · rw [EventBus.hooks, List.filter_filter]
    refine Eq.trans ?_ h
    rw [EventBus.hooks, List.filter_filter]
    exact List.filter_congr fun _ _ => Bool.and_comm _ _
  · exact (List.append_nil _).symm
  · exact Nat.le_refl _
  · simp [Happening.begun]
  · simp [Happening.begun]
  · simp

end Editor

end HeadlessEditor
