import AccessGateway.Wire.Message

/-!
# Request ids

Every request has an id: the one it came with, or a fresh one.  The answer carries the same id,
unless the backend put one there.
-/

set_option autoImplicit false

namespace AccessGateway.RequestId

/-- The id of a request for the log (`request_id`). -/
def text (headers : Headers) : String :=
  ((headers.first? .requestId).bind HeaderValue.text?).getD "unknown"

/-- The request with an id (`set_request_id_layer`). -/
def assign (fresh : String) (r : Request) : Request :=
  if r.headers.has .requestId then r
  else { r with headers := r.headers.insertSome .requestId (HeaderValue.ofText? fresh) }

/-- The answer with the id of its request (`propagate_request_id_layer`). -/
def echo (request : Headers) (r : Response) : Response :=
  if r.headers.has .requestId then r
  else { r with headers := r.headers.insertSome .requestId (request.first? .requestId) }

end AccessGateway.RequestId
