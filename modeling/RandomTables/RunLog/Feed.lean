import RandomTables.RunLog.Saved

/-!
# Subscribers

A feed is a log with subscribers. Each event goes to every subscriber in the order in which they
subscribed, once per subscription, and what a subscriber does with it has no effect on the others.
-/
namespace RandomTables

/-- A log, its subscribers by name, and what they have been sent. -/
structure Feed where
  log : SavedLog
  subscribers : List Text
  delivered : Array (Text × SavedEvent)
  deriving Inhabited

namespace Feed

def start (log : SavedLog) : Feed := ⟨log, [], #[]⟩

/-- Send further events from now on to a subscriber as well. -/
def subscribe (feed : Feed) (name : Text) : Feed :=
  { feed with subscribers := feed.subscribers ++ [name] }

/-- Take back the oldest subscription of a subscriber, if there is one. -/
def unsubscribe (feed : Feed) (name : Text) : Feed :=
  { feed with subscribers := feed.subscribers.erase name }

/-- Log an event and send it out; nothing if the log takes no event. -/
def append? (feed : Feed) (stamp : Timestamp) (body : SavedBody) (context : Document) :
    Option Feed :=
  (feed.log.append? stamp body context).map fun log =>
    let event : SavedEvent := ⟨log.sequence, stamp, context, body⟩
    { feed with
      log := log
      delivered := feed.delivered ++ feed.subscribers.map fun name => (name, event) }

/-- The log grows as it does without subscribers. -/
@[simp] theorem log_append? (feed : Feed) (stamp : Timestamp) (body : SavedBody)
    (context : Document) :
    (feed.append? stamp body context).map Feed.log = feed.log.append? stamp body context := by
  simp [append?, Function.comp_def]

end Feed
end RandomTables
