/-!
# The manifest

What the library tells about itself: the names that it publishes to its users, and its version.  No
semaphore depends on them.  They are kept because users can ask for them, and an answer is checked
like any other.
-/

namespace Turnstile
namespace Manifest

def names : List String :=
  ["AIOQueueStore", "AIORedisQueue", "AIOSemaphore", "AcquireTimeout", "MaxPositionExceeded",
    "QueueStore", "RedisQueue", "Semaphore", "SemaphoreDescriptor", "SemaphoreError",
    "StoreCommandError", "StoreConnectionError", "TaskJoinError", "clean_up",
    "estimate_sleep_duration", "wait_for_slot"]

/-- The version, which is known only where the library is installed. -/
def version (installed : Bool) : String :=
  if installed then "0.1.0" else "unknown"

end Manifest
end Turnstile
