/-!
# Why an event cannot be projected

- `ProjectionError`: the causes, each with the text that reports it.
- `ProjectionFailure`: an error, or a crash with its message.
-/

namespace TableService

/-- Why an event is not projected. What is wrong with a field is told with the type of the event. -/
inductive ProjectionError where
  | missingField (eventType field : String)
  | invalidField (eventType field value : String)
  | unhandledEventType (projector eventType : String)
  | storage (reason : String)
deriving DecidableEq

/-- How the error is reported. This is the last error that the entry keeps. -/
def ProjectionError.message : ProjectionError → String
  | missingField eventType field => "Event " ++ eventType ++ " is missing field " ++ field
  | invalidField eventType field value =>
    "Event " ++ eventType ++ " field " ++ field ++ " has an invalid value: " ++ value
  | unhandledEventType projector eventType =>
    "Projector " ++ projector ++ " does not handle event type " ++ eventType
  | storage reason => "Read model storage error: " ++ reason

/-- A projector fails with an error, or it crashes. -/
inductive ProjectionFailure where
  | error (e : ProjectionError)
  | panic (message : String)
deriving DecidableEq

end TableService
