import LinkTrail.PatternSet
import LinkTrail.Response

namespace LinkTrail

structure Listener (κ : Type) where
  callback : κ
  urls : PatternSet
  withHeaders : Bool
deriving DecidableEq, Repr

structure Listeners (κ : Type) where
  entries : List (Listener κ) := []
deriving DecidableEq, Repr

def Listener.view {κ : Type} (l : Listener κ) (r : Response) : Response :=
  if l.withHeaders then r else r.withoutHeaders

namespace Listeners

variable {κ : Type}

def add (ls : Listeners κ) (callback : κ) (patterns : List String) (withHeaders : Bool) :
    Except Pattern.Error (Listeners κ) :=
  (PatternSet.ofPatterns patterns).map fun urls =>
    ⟨ls.entries ++ [⟨callback, urls, withHeaders⟩]⟩

def addForAll (ls : Listeners κ) (callback : κ) : Listeners κ :=
  ⟨ls.entries ++ [{ callback, urls := PatternSet.allUrls, withHeaders := true }]⟩

theorem add_allUrlsText (ls : Listeners κ) (callback : κ) :
    ls.add callback [Pattern.allUrlsText] true = .ok (ls.addForAll callback) := by rfl

def count (ls : Listeners κ) : Nat := ls.entries.length

def hearing (ls : Listeners κ) (url : String) : List (Listener κ) :=
  ls.entries.filter fun l => l.urls.accepts url

def hears (ls : Listeners κ) (url : String) : Bool := ls.entries.any fun l => l.urls.accepts url

variable [DecidableEq κ]

def remove (ls : Listeners κ) (callback : κ) : Listeners κ :=
  ⟨ls.entries.filter fun l => l.callback ≠ callback⟩

def has (ls : Listeners κ) (callback : κ) : Bool :=
  ls.entries.any fun l => l.callback = callback

end Listeners

end LinkTrail
