import Mathlib.Tactic.Lemma

/-!
# HTTP methods and status codes

The method map and the status map of `Sming/third-party/http-parser/http_parser.h`, in their order.
-/

namespace Sming.Network.Http

inductive HttpMethod where
  | delete | get | head | post | put
  | connect | options | trace
  | copy | lock | mkcol | move | propfind | proppatch | search | unlock | bind | rebind | unbind | acl
  | report | mkactivity | checkout | merge
  | msearch | notify | subscribe | unsubscribe
  | patch | purge
  | mkcalendar
  | link | unlink
  | source
  deriving Repr, DecidableEq

def HttpMethod.str : HttpMethod → String
  | delete => "DELETE" | get => "GET" | head => "HEAD" | post => "POST" | put => "PUT"
  | connect => "CONNECT" | options => "OPTIONS" | trace => "TRACE"
  | copy => "COPY" | lock => "LOCK" | mkcol => "MKCOL" | move => "MOVE"
  | propfind => "PROPFIND" | proppatch => "PROPPATCH" | search => "SEARCH" | unlock => "UNLOCK"
  | bind => "BIND" | rebind => "REBIND" | unbind => "UNBIND" | acl => "ACL"
  | report => "REPORT" | mkactivity => "MKACTIVITY" | checkout => "CHECKOUT" | merge => "MERGE"
  | msearch => "M-SEARCH" | notify => "NOTIFY" | subscribe => "SUBSCRIBE"
  | unsubscribe => "UNSUBSCRIBE"
  | patch => "PATCH" | purge => "PURGE"
  | mkcalendar => "MKCALENDAR"
  | link => "LINK" | unlink => "UNLINK"
  | source => "SOURCE"

def httpGetStatusText : Int → String
  | 100 => "Continue"
  | 101 => "Switching Protocols"
  | 102 => "Processing"
  | 200 => "OK"
  | 201 => "Created"
  | 202 => "Accepted"
  | 203 => "Non-Authoritative Information"
  | 204 => "No Content"
  | 205 => "Reset Content"
  | 206 => "Partial Content"
  | 207 => "Multi-Status"
  | 208 => "Already Reported"
  | 226 => "IM Used"
  | 300 => "Multiple Choices"
  | 301 => "Moved Permanently"
  | 302 => "Found"
  | 303 => "See Other"
  | 304 => "Not Modified"
  | 305 => "Use Proxy"
  | 307 => "Temporary Redirect"
  | 308 => "Permanent Redirect"
  | 400 => "Bad Request"
  | 401 => "Unauthorized"
  | 402 => "Payment Required"
  | 403 => "Forbidden"
  | 404 => "Not Found"
  | 405 => "Method Not Allowed"
  | 406 => "Not Acceptable"
  | 407 => "Proxy Authentication Required"
  | 408 => "Request Timeout"
  | 409 => "Conflict"
  | 410 => "Gone"
  | 411 => "Length Required"
  | 412 => "Precondition Failed"
  | 413 => "Payload Too Large"
  | 414 => "URI Too Long"
  | 415 => "Unsupported Media Type"
  | 416 => "Range Not Satisfiable"
  | 417 => "Expectation Failed"
  | 421 => "Misdirected Request"
  | 422 => "Unprocessable Entity"
  | 423 => "Locked"
  | 424 => "Failed Dependency"
  | 426 => "Upgrade Required"
  | 428 => "Precondition Required"
  | 429 => "Too Many Requests"
  | 431 => "Request Header Fields Too Large"
  | 451 => "Unavailable For Legal Reasons"
  | 500 => "Internal Server Error"
  | 501 => "Not Implemented"
  | 502 => "Bad Gateway"
  | 503 => "Service Unavailable"
  | 504 => "Gateway Timeout"
  | 505 => "HTTP Version Not Supported"
  | 506 => "Variant Also Negotiates"
  | 507 => "Insufficient Storage"
  | 508 => "Loop Detected"
  | 510 => "Not Extended"
  | 511 => "Network Authentication Required"
  | code => "<unknown_" ++ toString code ++ ">"

end Sming.Network.Http
