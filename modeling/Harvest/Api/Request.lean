import Harvest.Text.Digits

/-! # Requests and addresses

A request names a path of the source; it is bound to a base address when it is sent.
-/

namespace Harvest.Api

open Harvest.Text

/-- A request before it is bound to an address. -/
structure Request where
  method : String
  path : String
  query : List (String × String)
  body : Option (List UInt8)
  /-- The version of the document that is held already. -/
  etag : Option String
deriving DecidableEq

namespace Request

def get (path : String) : Request :=
  { method := "GET", path, query := [], body := none, etag := none }

/-- The query as it is logged. -/
def queryText (r : Request) : String :=
  String.intercalate "&" (r.query.map fun (k, v) => k ++ "=" ++ v)

end Request

/-! ## Paths -/

namespace Path

def status : String := "/v1/status/"

def killmail (id : UInt64) (hash : String) : String :=
  "/v1/killmails/" ++ showNat id.toNat ++ "/" ++ hash ++ "/"

def character (id : UInt64) : String := "/v5/characters/" ++ showNat id.toNat ++ "/"

def corporation (id : UInt64) : String := "/v5/corporations/" ++ showNat id.toNat ++ "/"

def alliance (id : UInt64) : String := "/v4/alliances/" ++ showNat id.toNat ++ "/"

end Path

end Harvest.Api
