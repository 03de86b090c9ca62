import HeadlessEditor.Event.Basic

/-!
Subscriptions. An event reaches the subscribers of its kind in the order in which they subscribed.
-/

namespace HeadlessEditor

structure EventBus where
  lastId : SubscriptionId
  subscribers : List Subscriber
  deriving DecidableEq, Repr

namespace EventBus

def empty : EventBus := ⟨0, []⟩

/-- Subscribes a listener to a kind of events, under a new id. -/
def subscribe (bus : EventBus) (kind : EventKind) (listener : Listener) :
    EventBus × SubscriptionId :=
  let id := bus.lastId + 1
  (⟨id, bus.subscribers ++ [⟨id, kind, listener⟩]⟩, id)

def unsubscribe (bus : EventBus) (id : SubscriptionId) : EventBus × Bool :=
  ({ bus with subscribers := bus.subscribers.filter (·.id != id) },
    bus.subscribers.any (·.id == id))

def subscribersOf (bus : EventBus) (kind : EventKind) : List Subscriber :=
  bus.subscribers.filter (·.kind == kind)

/-- The notices by which an event reaches its subscribers. -/
def deliveries (bus : EventBus) (event : Event) : List Notice :=
  (bus.subscribersOf event.kind).map (.delivered · event)

end EventBus

end HeadlessEditor
