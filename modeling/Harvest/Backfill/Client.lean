import Harvest.Api.Client
import Harvest.Backfill.Source

/-! # Fetching daily listings

The documents of the source of listings lie at fixed paths below its base address. A document is
asked for once; who wants more attempts makes them.
-/

namespace Harvest.Backfill

open Harvest.Calendar Harvest.Api Harvest.Http

/-- The settings of a client. -/
structure ClientConfig where
  baseUrl : String
  userAgent : String
  timeout : Duration
deriving DecidableEq

def ClientConfig.standard : ClientConfig :=
  { baseUrl := "https://zkillboard.com", userAgent := "killfeed/0.1.0", timeout := .ofSeconds 30 }

namespace Client

/-- Whether a client can be made with the settings. -/
def build? (c : ClientConfig) : Except SourceError ClientConfig :=
  if isHeaderValue c.userAgent then .ok c else .error (.build "invalid user agent")

/-- The address of a path. -/
def address (c : ClientConfig) (path : String) : String := join c.baseUrl path

def totalsPath : String := "/api/history/totals.json"

def dayPath (d : Date) : String := "/api/history/" ++ d.key ++ ".json"

/-- The body of the document at a path. -/
def get (c : ClientConfig) (net : Network) (path : String) : Except SourceError (List UInt8) :=
  let url := address c path
  match Url.parse? url with
  | none => .error (.transport (url ++ ": no address"))
  | some _ =>
    match net 1 with
    | .error f => .error (.transport f.message)
    | .ok r =>
      if r.status ≠ 200 then .error (.status r.status url)
      else if r.body = [] then .error (.emptyBody url)
      else .ok r.body

/-- The counts of all days. -/
def totals (c : ClientConfig) (net : Network) : Except SourceError Totals :=
  match get c net totalsPath with
  | .ok body => readTotals body
  | .error e => .error e

/-- The work items of a day. -/
def day (c : ClientConfig) (net : Network) (d : Date) : Except SourceError (List WorkItem) :=
  match get c net (dayPath d) with
  | .ok body => readListing body
  | .error e => .error e

end Client

end Harvest.Backfill
