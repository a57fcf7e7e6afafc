import Sylar.Http.Recv
/-! # The headers of `HttpConnection::DoRequest` and `HttpConnectionPool::doRequest`

Both fill a new `HttpRequest` from the caller's `std::map<std::string, std::string>` of headers
with the same loop. A header named `connection`, in any case, is not copied; it calls
`setClose(false)` if its value is `keep-alive`, in any case. Any other header is copied with
`setHeader`, and `has_host` records whether a header named `host` with a value was seen. After
the loop a request without one gets `setHeader("Host", ..)`: the URI's host for `DoRequest`;
`m_vhost`, or `m_host` when `m_vhost` is empty, for the pool. The pool's version also calls
`setClose(false)` before the loop.

`HttpRequest` (`http.cc`) is not among the sources, so the model keeps the calls made on the
request that set its headers and its connection flag, in order (`ReqCall`).

* `headerLoop_calls`: the loop's calls do not depend on `has_host`; `headerLoop_hasHost`: it ends
  with `has_host` set exactly when some header named `host` has a value.
* `doRequest_headers`: both set the caller's headers other than `connection`, and `Host` exactly
  when no header named `host` has a value; neither ever calls `setClose(true)`. A direct request
  calls `setClose(false)` exactly when the caller sent `connection: keep-alive`, a pooled one
  always, so a caller's `connection: close` is dropped and a pooled request asks to be kept
  alive whatever the caller sent. -/

namespace Sylar.Http.Request

open Sylar.Http.Recv

/-- A call on the new `HttpRequest` that sets a header or the connection flag. -/
inductive ReqCall
  | setClose (v : Bool)
  | setHeader (key val : String)
deriving DecidableEq, Repr

/-- What one entry of `headers` gives in the loop. -/
def headerCall (kv : String × String) : List ReqCall :=
  if strcasecmpEq kv.1 "connection" then
    if strcasecmpEq kv.2 "keep-alive" then [.setClose false] else []
  else [.setHeader kv.1 kv.2]

/-- **The loop over `headers`**, from `has_host`: the calls it makes and `has_host` after it. -/
def headerLoop (hasHost : Bool) : List (String × String) → List ReqCall × Bool
  | [] => ([], hasHost)
  | (k, v) :: hs =>
    if strcasecmpEq k "connection" then
      let r := headerLoop hasHost hs
      ((if strcasecmpEq v "keep-alive" then [.setClose false] else []) ++ r.1, r.2)
    else
      let r := headerLoop (if !hasHost && strcasecmpEq k "host" then !v.isEmpty else hasHost) hs
      (.setHeader k v :: r.1, r.2)

/-- The part both share: `setClose(false)` first for the pool (`closeFirst`), the loop, and
`setHeader("Host", host)` when `has_host` is false. -/
def requestHeaders (closeFirst : Bool) (host : String) (headers : List (String × String)) :
    List ReqCall :=
  (if closeFirst then [.setClose false] else []) ++ (headerLoop false headers).1 ++
    (if (headerLoop false headers).2 then [] else [.setHeader "Host" host])

/-- **`HttpConnection::DoRequest(method, uri, timeout_ms, headers, body)`**: the calls that set
the request's headers and connection flag, with `uri->getHost()` as `uriHost`. -/
def HttpConnection.doRequest (uriHost : String) (headers : List (String × String)) :
    List ReqCall :=
  requestHeaders false uriHost headers

/-- **`HttpConnectionPool::doRequest(method, url, timeout_ms, headers, body)`**: the same calls,
with `m_host` and `m_vhost`. -/
def HttpConnectionPool.doRequest (host vhost : String) (headers : List (String × String)) :
    List ReqCall :=
  requestHeaders true (if vhost.isEmpty then host else vhost) headers

/-- The calls of the loop are those of its entries, whatever `has_host` is. -/
theorem headerLoop_calls (hasHost : Bool) (headers : List (String × String)) :
    (headerLoop hasHost headers).1 = headers.flatMap headerCall := by
  induction headers generalizing hasHost with
  | nil => rfl
  | cons kv hs ih =>
    obtain ⟨k, v⟩ := kv
    simp only [headerLoop, headerCall, List.flatMap_cons]
    split <;> simp [ih]

/-- No header named `host` has a value. -/
def hostMissing (headers : List (String × String)) : Bool :=
  headers.all fun kv => !strcasecmpEq kv.1 "host" || kv.2.isEmpty

/-- The caller sent `connection: keep-alive`, in any case. -/
def keepAliveSent (headers : List (String × String)) : Bool :=
  headers.any fun kv => strcasecmpEq kv.1 "connection" && strcasecmpEq kv.2 "keep-alive"

theorem not_host_of_connection {k : String} (h : strcasecmpEq k "connection" = true) :
    strcasecmpEq k "host" = false := by
  simp only [strcasecmpEq, beq_iff_eq] at h ⊢
  rw [h]; decide

/-- `has_host` after the loop: set before it, or some header named `host` has a value. -/
theorem headerLoop_hasHost (hasHost : Bool) (headers : List (String × String)) :
    (headerLoop hasHost headers).2 = (hasHost || !hostMissing headers) := by
  induction headers generalizing hasHost with
  | nil => simp [headerLoop, hostMissing]
  | cons kv hs ih =>
    obtain ⟨k, v⟩ := kv
    simp only [hostMissing, List.all_cons] at ih ⊢
    rw [headerLoop]
    split
    · rename_i hc; simp [ih, not_host_of_connection hc]
    · rw [ih]; cases hasHost <;> cases strcasecmpEq k "host" <;> simp

theorem setHeader_mem_headerCall (k v : String) (kv : String × String) :
    .setHeader k v ∈ headerCall kv ↔
      strcasecmpEq kv.1 "connection" = false ∧ (k, v) = kv := by
  obtain ⟨k', v'⟩ := kv
  unfold headerCall
  split <;> [split; skip] <;> simp_all

theorem setClose_mem_headerCall (b : Bool) (kv : String × String) :
    .setClose b ∈ headerCall kv ↔
      (strcasecmpEq kv.1 "connection" && strcasecmpEq kv.2 "keep-alive") = true ∧ b = false := by
  unfold headerCall
  split <;> [split; skip] <;> simp_all

/-- **What the shared part sets**: the caller's headers other than `connection`, and `Host` when
no header named `host` has a value; `setClose` only with `false`, first for the pool and for each
`connection: keep-alive`. -/
theorem requestHeaders_calls (closeFirst : Bool) (host : String)
    (headers : List (String × String)) :
    (∀ k v, .setHeader k v ∈ requestHeaders closeFirst host headers ↔
      ((k, v) ∈ headers ∧ strcasecmpEq k "connection" = false) ∨
        (k = "Host" ∧ v = host ∧ hostMissing headers = true)) ∧
    (∀ b, .setClose b ∈ requestHeaders closeFirst host headers ↔
      b = false ∧ (closeFirst = true ∨ keepAliveSent headers = true)) := by
  simp only [requestHeaders, headerLoop_calls, headerLoop_hasHost, Bool.false_or, keepAliveSent,
    List.mem_append, List.mem_flatMap, setHeader_mem_headerCall, setClose_mem_headerCall,
    List.any_eq_true, exists_eq_right_right', ← and_assoc, exists_and_right]
  refine ⟨fun k v => ?_, fun b => ?_⟩
  · cases hostMissing headers <;> cases closeFirst <;> simp [and_comm]
  · cases closeFirst <;> simp +contextual [and_comm]

/-- **Both requests set the caller's headers but `connection`, and `Host` when no header named
`host` has a value, and neither asks to close the connection**: a direct request asks to keep it
alive exactly when the caller sent `connection: keep-alive`, a pooled one always. -/
theorem doRequest_headers (uriHost host vhost : String) (headers : List (String × String)) :
    (∀ k v, .setHeader k v ∈ HttpConnection.doRequest uriHost headers ↔
      ((k, v) ∈ headers ∧ strcasecmpEq k "connection" = false) ∨
        (k = "Host" ∧ v = uriHost ∧ hostMissing headers = true)) ∧
    (∀ k v, .setHeader k v ∈ HttpConnectionPool.doRequest host vhost headers ↔
      ((k, v) ∈ headers ∧ strcasecmpEq k "connection" = false) ∨
        (k = "Host" ∧ v = (if vhost.isEmpty then host else vhost) ∧
          hostMissing headers = true)) ∧
    .setClose true ∉ HttpConnection.doRequest uriHost headers ∧
    .setClose true ∉ HttpConnectionPool.doRequest host vhost headers ∧
    (.setClose false ∈ HttpConnection.doRequest uriHost headers ↔
      keepAliveSent headers = true) ∧
    .setClose false ∈ HttpConnectionPool.doRequest host vhost headers := by
  obtain ⟨hd, cd⟩ := requestHeaders_calls false uriHost headers
  obtain ⟨hp, cp⟩ := requestHeaders_calls true (if vhost.isEmpty then host else vhost) headers
  exact ⟨hd, hp, by simpa using cd true, by simpa using cp true, by simpa using cd false,
    by simpa using cp false⟩

/-- A pooled request drops the caller's `Connection: close`, and sets `Host` after an empty
`host`. -/
example : HttpConnectionPool.doRequest "sylar.top" "" [("Connection", "close"), ("host", "")] =
    [.setClose false, .setHeader "host" "", .setHeader "Host" "sylar.top"] := by decide

end Sylar.Http.Request
